import EnumLabels.Proofs.Data.Plain
import EnumLabels.Proofs.Yaml.DoubleQuoted

/-!
# What is read of written data

Data is read as it was written, except for strings between double quotes at narrow places, into
which backslashes and blanks may stray. Such a place is one that is nested so deeply that text is
continued at the width or behind it. The data that is read equals the data that was written if and
only if nothing strays into any of its strings.
-/

namespace EnumLabels

namespace Yaml

/-- Whether in a text an inner character with an escape stands before an inner blank. -/
def hasStray (first : Bool) : List Char → Bool
  | [] => false
  | c :: rest =>
    (!first && (escape? c.toNat).isSome && rest.head? == some ' ' && decide (1 < rest.length)) ||
      hasStray false rest

/-- Overfolding adds characters. -/
theorem length_le_length_overfold (narrow first : Bool) (text : List Char) :
    text.length ≤ (overfold narrow first text).length := by
  induction text generalizing first with
  | nil => exact Nat.le_refl 0
  | cons c rest ih =>
    have hrest := ih false
    rw [overfold, List.length_cons, List.length_cons, List.length_append]
    omega

/-- Text is read as it was written unless something strays in at a narrow place. -/
theorem overfold_eq_self_iff {narrow first : Bool} {text : List Char} :
    overfold narrow first text = text ↔ (narrow && hasStray first text) = false := by
  cases narrow with
  | false => simp
  | true =>
    rw [Bool.true_and]
    induction text generalizing first with
    | nil => simp [overfold, hasStray]
    | cons c rest ih =>
      rw [overfold, hasStray, strayGap, Bool.true_and, Bool.or_eq_false_iff, List.cons.injEq]
      split_ifs with hstray
      · have hlength := length_le_length_overfold true false rest
        constructor
        · rintro ⟨-, heq⟩
          have hlonger := congrArg List.length heq
          rw [List.length_append] at hlonger
          simp only [List.length_cons, List.length_nil] at hlonger
          omega
        · rintro ⟨hnone, -⟩
          rw [hnone] at hstray
          contradiction
      · rw [List.nil_append, ih]
        simp only [Bool.not_eq_true] at hstray
        simp [hstray]

/-- What is read of a string that is continued at an indentation. -/
def rereadString (indent : Nat) (s : String) : String :=
  if styleOf s.toList = .double then
    String.ofList (overfold (isNarrow true indent) true s.toList)
  else s

/-- Whether something strays into a string that is continued at an indentation. -/
def straysInto (indent : Nat) (s : String) : Bool :=
  styleOf s.toList == .double && decide (width ≤ indent) && hasStray true s.toList

/-- A string is read as it was written unless something strays in. -/
theorem rereadString_eq_self_iff {indent : Nat} {s : String} :
    rereadString indent s = s ↔ straysInto indent s = false := by
  unfold rereadString straysInto
  split_ifs with hstyle
  · have hlist : String.ofList (overfold (isNarrow true indent) true s.toList) = s ↔
        overfold (isNarrow true indent) true s.toList = s.toList := by
      constructor
      · intro heq
        exact (String.toList_ofList ..).symm.trans (congrArg String.toList heq)
      · intro heq
        rw [heq, String.ofList_toList]
    rw [hlist, overfold_eq_self_iff, isNarrow, Bool.true_and, hstyle]
    rfl
  · simp [hstyle]

end Yaml

namespace Data

mutual

/-- What is read of data that is written behind a dash, or behind the colon of a key, in a block at
an indentation. -/
def reread (behindDash : Bool) (indent : Nat) : Data → Data
  | str (.chars s) => str (Yaml.rereadString (indent + 2) s)
  | list items => list (rereadItems (if behindDash then indent + 2 else indent) items)
  | dict entries => dict (rereadEntries (indent + 2) entries)
  | d => d
termination_by structural d => d

/-- What is read of the items of a list. -/
def rereadItems (indent : Nat) : List Data → List Data
  | [] => []
  | x :: xs => x.reread true indent :: rereadItems indent xs
termination_by structural xs => xs

/-- What is read of the entries of a mapping. -/
def rereadEntries (indent : Nat) : List (Data × Data) → List (Data × Data)
  | [] => []
  | e :: es => rereadEntry indent e :: rereadEntries indent es
termination_by structural es => es

/-- What is read of an entry of a mapping. -/
def rereadEntry (indent : Nat) : Data × Data → Data × Data
  | (k, v) => (k, v.reread false indent)
termination_by structural e => e

end

mutual

/-- Whether something strays into a string of data that is written behind a dash, or behind the
colon of a key, in a block at an indentation. -/
def strays (behindDash : Bool) (indent : Nat) : Data → Bool
  | str (.chars s) => Yaml.straysInto (indent + 2) s
  | list items => straysItems (if behindDash then indent + 2 else indent) items
  | dict entries => straysEntries (indent + 2) entries
  | _ => false
termination_by structural d => d

/-- Whether something strays into a string of some items. -/
def straysItems (indent : Nat) : List Data → Bool
  | [] => false
  | x :: xs => x.strays true indent || straysItems indent xs
termination_by structural xs => xs

/-- Whether something strays into a string of some entries. -/
def straysEntries (indent : Nat) : List (Data × Data) → Bool
  | [] => false
  | e :: es => straysEntry indent e || straysEntries indent es
termination_by structural es => es

/-- Whether something strays into a string of an entry. -/
def straysEntry (indent : Nat) : Data × Data → Bool
  | (_, v) => v.strays false indent
termination_by structural e => e

end

mutual

/-- How deeply data nests lists and mappings. -/
def depth : Data → Nat
  | list items => depthItems items + 1
  | dict entries => depthEntries entries + 1
  | _ => 0
termination_by structural d => d

/-- How deeply some items nest lists and mappings. -/
def depthItems : List Data → Nat
  | [] => 0
  | x :: xs => max x.depth (depthItems xs)
termination_by structural xs => xs

/-- How deeply the values of some entries nest lists and mappings. -/
def depthEntries : List (Data × Data) → Nat
  | [] => 0
  | e :: es => max (depthEntry e) (depthEntries es)
termination_by structural es => es

/-- How deeply the value of an entry nests lists and mappings. -/
def depthEntry : Data × Data → Nat
  | (_, v) => v.depth
termination_by structural e => e

end

/-- Data in lists within lists. -/
def nested : Nat → Data → Data
  | 0, d => d
  | depth + 1, d => list [nested depth d]

section Equations

variable (behindDash : Bool) (indent : Nat)

/-- Items are read one by one. -/
theorem rereadItems_eq_map (items : List Data) :
    rereadItems indent items = items.map (reread true indent) := by
  induction items with
  | nil => rfl
  | cons x xs ih => rw [rereadItems, ih, List.map_cons]

/-- The entries of a mapping are read value by value. -/
theorem rereadEntries_ofFields (fields : List (String × Data)) :
    rereadEntries indent (ofFields fields) =
      ofFields (fields.map fun f => (f.1, f.2.reread false indent)) := by
  induction fields with
  | nil => rfl
  | cons f fields ih =>
    rw [ofFields] at ih ⊢
    rw [List.map_cons, rereadEntries, ih]
    rfl

/-- Something strays into a list if it does into an item. -/
theorem straysItems_eq_any (items : List Data) :
    straysItems indent items = items.any (strays true indent) := by
  induction items with
  | nil => rfl
  | cons x xs ih => rw [straysItems, ih, List.any_cons]

/-- Something strays into a mapping if it does into a value. -/
theorem straysEntries_ofFields (fields : List (String × Data)) :
    straysEntries indent (ofFields fields) = fields.any fun f => f.2.strays false indent := by
  induction fields with
  | nil => rfl
  | cons f fields ih =>
    rw [ofFields] at ih ⊢
    rw [List.map_cons, straysEntries, ih]
    rfl

end Equations

/-- Plain data is read as it was written when nothing strays in. -/
theorem reread_eq_self {d : Data} (h : d.IsPlain) {behindDash : Bool} {indent : Nat}
    (hstrays : d.strays behindDash indent = false) : d.reread behindDash indent = d := by
  induction h generalizing behindDash indent with
  | null => rfl
  | bool b => rfl
  | int n => rfl
  | str s =>
    rw [strays] at hstrays
    rw [reread, Yaml.rereadString_eq_self_iff.mpr hstrays]
  | @list items _ ih =>
    rw [strays, straysItems_eq_any, List.any_eq_false] at hstrays
    rw [reread, rereadItems_eq_map]
    refine congrArg list ((List.map_congr_left fun d hd => ?_).trans (List.map_id items))
    exact ih d hd (Bool.eq_false_iff.mpr (hstrays d hd))
  | @dict fields _ _ ih =>
    rw [strays, straysEntries_ofFields, List.any_eq_false] at hstrays
    rw [reread, rereadEntries_ofFields]
    refine congrArg (fun fields => dict (ofFields fields))
      ((List.map_congr_left fun f hf => ?_).trans (List.map_id fields))
    exact congrArg (Prod.mk f.1) (ih f hf (Bool.eq_false_iff.mpr (hstrays f hf)))

/-- Items are no deeper than all of them together. -/
theorem depth_le_depthItems {items : List Data} {d : Data} (h : d ∈ items) :
    d.depth ≤ depthItems items := by
  induction items with
  | nil => contradiction
  | cons x xs ih =>
    rcases List.mem_cons.mp h with rfl | hmem
    · exact Nat.le_max_left _ _
    · exact Nat.le_trans (ih hmem) (Nat.le_max_right _ _)

/-- Values of fields are no deeper than all of them together. -/
theorem depth_le_depthEntries {fields : List (String × Data)} {f : String × Data}
    (h : f ∈ fields) : f.2.depth ≤ depthEntries (ofFields fields) := by
  induction fields with
  | nil => contradiction
  | cons g fields ih =>
    rcases List.mem_cons.mp h with rfl | hmem
    · exact Nat.le_max_left _ _
    · exact Nat.le_trans (ih hmem) (Nat.le_max_right _ _)

/-- Nothing strays into data whose deepest place is not narrow. -/
theorem strays_eq_false_of_depth {d : Data} (h : d.IsPlain) {behindDash : Bool} {indent : Nat}
    (hdepth : indent + 2 * d.depth + 2 < Yaml.width) : d.strays behindDash indent = false := by
  induction h generalizing behindDash indent with
  | null => rfl
  | bool b => rfl
  | int n => rfl
  | str s =>
    have hwide : decide (Yaml.width ≤ indent + 2) = false := decide_eq_false (by omega)
    rw [strays, Yaml.straysInto, hwide, Bool.and_false, Bool.false_and]
  | @list items _ ih =>
    rw [strays, straysItems_eq_any, List.any_eq_false]
    intro x hx
    have hle := depth_le_depthItems hx
    rw [depth] at hdepth
    rw [ih x hx (by split_ifs <;> omega)]
    exact Bool.false_ne_true
  | @dict fields _ _ ih =>
    rw [strays, straysEntries_ofFields, List.any_eq_false]
    intro f hf
    have hle := depth_le_depthEntries hf
    rw [depth] at hdepth
    rw [ih f hf (by omega)]
    exact Bool.false_ne_true

/-- A string is read as it was written where there is room for it. -/
theorem reread_str {indent : Nat} (h : indent + 2 < Yaml.width) (behindDash : Bool) (s : String) :
    (str s).reread behindDash indent = str s :=
  reread_eq_self (.str s) (strays_eq_false_of_depth (.str s) h)

/-- Every list within a list takes two columns. -/
theorem reread_nested (depth indent : Nat) (d : Data) :
    (nested depth d).reread true indent = nested depth (d.reread true (indent + 2 * depth)) := by
  induction depth generalizing indent with
  | zero => rfl
  | succ depth ih =>
    have hindent : indent + 2 * (depth + 1) = indent + 2 + 2 * depth := by omega
    rw [hindent, nested, reread, rereadItems, ih, nested]
    rfl

/-- Plain data is no number that is none. -/
theorem bothNan_eq_false {d : Data} (h : d.IsPlain) (e : Data) : bothNan e d = false := by
  cases h <;> cases e <;> rfl

/-- Lists are equal if their items are. -/
theorem sameItems_map {items : List Data} {f : Data → Data} (h : ∀ d ∈ items, d.IsPlain) :
    sameItems (items.map f) items = items.all fun d => (f d).same d := by
  induction items with
  | nil => rfl
  | cons x xs ih =>
    obtain ⟨hx, hrest⟩ := List.forall_mem_cons.mp h
    rw [List.map_cons, sameItems, ih hrest, bothNan_eq_false hx, Bool.false_or, List.all_cons]

/-- Mappings are equal if the values under their keys are. -/
theorem same_dict_map {fields : List (String × Data)} {f : Data → Data}
    (hkeys : (fields.map (·.1)).Nodup) (hvalues : ∀ p ∈ fields, p.2.IsPlain) :
    (dict (ofFields (fields.map fun p => (p.1, f p.2)))).same (dict (ofFields fields)) =
      fields.all fun p => (f p.2).same p.2 := by
  have hentry : ∀ p ∈ fields, isEntryOf (str p.1, f p.2) (ofFields fields) = (f p.2).same p.2 := by
    intro p hp
    have hfield : lookup? (str p.1) (ofFields fields) = some p.2 := field?_of_mem hkeys hp
    rw [isEntryOf_eq, hfield]
    simp only [alike, bothNan_eq_false (hvalues p hp), Bool.false_or]
  have hlength :
      (ofFields (fields.map fun p => (p.1, f p.2))).length = (ofFields fields).length := by
    simp [ofFields]
  rw [same, hlength, beq_self_eq_true, Bool.true_and, sameEntries_eq_all, ofFields, List.all_map,
    List.all_map, Bool.eq_iff_iff, List.all_eq_true, List.all_eq_true]
  refine forall₂_congr fun p hp => ?_
  rw [← hentry p hp]
  rfl

/-- Plain data is read as equal data exactly when nothing strays in. -/
theorem same_reread {d : Data} (h : d.IsPlain) (behindDash : Bool) (indent : Nat) :
    (d.reread behindDash indent).same d = !d.strays behindDash indent := by
  induction h generalizing behindDash indent with
  | null => rfl
  | bool b => exact same_self (IsPlain.bool b)
  | int n => exact same_self (IsPlain.int n)
  | str s =>
    have hsame : (str (Yaml.rereadString (indent + 2) s)).same (str s) = true ↔
        Yaml.rereadString (indent + 2) s = s := by
      simp [same, sameScalar, toInt?]
    rw [reread, strays, Bool.eq_iff_iff, hsame, Yaml.rereadString_eq_self_iff, Bool.not_eq_true']
  | @list items hitems ih =>
    rw [reread, same, rereadItems_eq_map, sameItems_map hitems, strays, straysItems_eq_any,
      List.not_any_eq_all_not, Bool.eq_iff_iff, List.all_eq_true, List.all_eq_true]
    exact forall₂_congr fun x hx => by rw [ih x hx]
  | @dict fields hkeys hvalues ih =>
    rw [reread, rereadEntries_ofFields, same_dict_map hkeys hvalues, strays, straysEntries_ofFields,
      List.not_any_eq_all_not, Bool.eq_iff_iff, List.all_eq_true, List.all_eq_true]
    exact forall₂_congr fun f hf => by rw [ih f hf]

end Data

end EnumLabels
