import EnumLabels.Proofs.Data.Plain
import Mathlib.Data.List.Find
import Mathlib.Data.List.Pairwise
import Mathlib.Data.List.Perm.Subperm

/-!
# Equality of data is an equivalence

Floats left aside, a value equals itself, and values that are equal equal the same values. So
equality is symmetric and transitive, however deep the values are nested.

Two mappings are equal if they have equally many entries and every entry of the first one is found
in the second one. Since no two entries of the first one are found in the same place, every place of
the second one is found, and what is found in each place equals the same values as what is there.
-/

namespace EnumLabels

namespace Moment

/-- The microseconds of universal time up to a moment, if it is a time with an offset. -/
def instant? (m : Moment) : Option Int :=
  m.clock.bind fun c => c.offset.map fun offset => m.instant c offset

/-- A time with an offset equals the times of the same instant and no other moments. -/
theorem same_of_instant? {m : Moment} {i : Int} (h : m.instant? = some i) (n : Moment) :
    m.same n = (n.instant? == some i) := by
  obtain ⟨c, hc, hinstant⟩ := Option.bind_eq_some_iff.mp h
  obtain ⟨o, ho, rfl⟩ := Option.map_eq_some_iff.mp hinstant
  have hne (hn : n.instant? = none) : (m == n) = false := by
    rw [beq_eq_false_iff_ne]
    rintro rfl
    rw [h] at hn
    contradiction
  cases hd : n.clock with
  | none =>
    have hn : n.instant? = none := by simp [instant?, hd]
    simp [same, hc, hd, hn, hne hn]
  | some d =>
    cases hp : d.offset with
    | none =>
      have hn : n.instant? = none := by simp [instant?, hd, hp]
      simp [same, hc, ho, hd, hp, hn, hne hn]
    | some p => simp [same, instant?, hc, ho, hd, hp, eq_comm]

/-- A moment that is no time with an offset equals only itself. -/
theorem same_of_instant?_eq_none {m : Moment} (h : m.instant? = none) (n : Moment) :
    m.same n = (m == n) := by
  unfold same
  cases hc : m.clock with
  | none => rfl
  | some c =>
    cases n.clock with
    | none => rfl
    | some d =>
      have ho : c.offset = none := by simpa [instant?, hc] using h
      simp [ho]

/-- A moment equals itself. -/
theorem same_self (m : Moment) : m.same m = true := by
  cases h : m.instant? with
  | some i => simp [same_of_instant? h, h]
  | none => simp [same_of_instant?_eq_none h]

/-- Moments that are equal equal the same moments. -/
theorem same_congr {m n : Moment} (h : m.same n = true) (other : Moment) :
    m.same other = n.same other := by
  cases hm : m.instant? with
  | some i =>
    rw [same_of_instant? hm, beq_iff_eq] at h
    rw [same_of_instant? hm, same_of_instant? h]
  | none =>
    rw [same_of_instant?_eq_none hm, beq_iff_eq] at h
    rw [h]

end Moment

namespace Data

/-- Entries no two of which have equal keys. -/
def HasDistinctKeys (entries : List (Data × Data)) : Prop :=
  entries.Pairwise fun e f => e.1.same f.1 = false

/-- Data without floats, the mappings and objects of which have no two equal keys. -/
inductive IsComparable : Data → Prop
  | null : IsComparable null
  | bool (b : Bool) : IsComparable (bool b)
  | int (n : Int) : IsComparable (int n)
  | str (s : CodeString) : IsComparable (str s)
  | moment (m : Moment) : IsComparable (moment m)
  | list {items : List Data} (hitems : ∀ d ∈ items, IsComparable d) : IsComparable (list items)
  | dict {entries : List (Data × Data)} (hdistinct : HasDistinctKeys entries)
      (hkeys : ∀ e ∈ entries, IsComparable e.1) (hvalues : ∀ e ∈ entries, IsComparable e.2) :
      IsComparable (dict entries)
  | object {attributes : List (Data × Data)} (hdistinct : HasDistinctKeys attributes)
      (hkeys : ∀ e ∈ attributes, IsComparable e.1)
      (hvalues : ∀ e ∈ attributes, IsComparable e.2) : IsComparable (object attributes)

/-- A value that equals itself and equals the same values as any value that it equals. -/
structure IsLawful (d : Data) : Prop where
  same_self : d.same d = true
  same_congr : ∀ e, e.IsComparable → d.same e = true → ∀ other, d.same other = e.same other

/-- Data without floats is compared in collections as it is elsewhere. -/
theorem IsComparable.alike_eq {d : Data} (h : d.IsComparable) (other : Data) :
    d.alike other = d.same other := by
  cases h <;> rfl

/-- A value that counts as an integer is compared as one. -/
theorem sameScalar_congr {a b : Data} {n : Int} (ha : a.toInt? = some n) (hb : b.toInt? = some n)
    (other : Data) : sameScalar a other = sameScalar b other := by
  simp only [sameScalar, ha, hb]
  cases other.toInt? <;> rfl

section Lists

variable {items : List Data} (hitems : ∀ d ∈ items, d.IsComparable)
  (hlawful : ∀ d ∈ items, d.IsLawful)
include hitems hlawful

/-- Lists that are equal equal the same lists. -/
theorem sameItems_congr {others : List Data} (hothers : ∀ d ∈ others, d.IsComparable)
    (h : sameItems items others = true) (more : List Data) :
    sameItems items more = sameItems others more := by
  induction items generalizing others more with
  | nil =>
    cases others with
    | nil => rfl
    | cons y others => contradiction
  | cons x items ih =>
    cases others with
    | nil => contradiction
    | cons y others =>
      obtain ⟨hx, hrest⟩ := List.forall_mem_cons.mp hitems
      obtain ⟨hxlaw, hrestlaw⟩ := List.forall_mem_cons.mp hlawful
      obtain ⟨hy, hothers⟩ := List.forall_mem_cons.mp hothers
      rw [sameItems, Bool.and_eq_true] at h
      change x.alike y = true ∧ _ at h
      rw [hx.alike_eq] at h
      cases more with
      | nil => rfl
      | cons z more =>
        change (x.alike z && _) = (y.alike z && _)
        rw [hx.alike_eq, hy.alike_eq, hxlaw.same_congr y hy h.1 z, ih hrest hrestlaw hothers h.2]

/-- A list equals itself if its items do. -/
theorem IsLawful.list : (list items).IsLawful := by
  constructor
  · rw [same]
    exact sameItems_self fun d hd => (hlawful d hd).same_self
  · intro e he hsame other
    cases he with
    | @list others hothers =>
      rw [same] at hsame
      cases other with
      | list more => rw [same, same, sameItems_congr hitems hlawful hothers hsame]
      | _ => rfl
    | _ => contradiction

end Lists

section Entries

variable {entries : List (Data × Data)} (hdistinct : HasDistinctKeys entries)
  (hkeys : ∀ e ∈ entries, e.1.IsComparable) (hvalues : ∀ e ∈ entries, e.2.IsComparable)
  (hlawfulKeys : ∀ e ∈ entries, e.1.IsLawful) (hlawfulValues : ∀ e ∈ entries, e.2.IsLawful)

include hdistinct hkeys hlawfulKeys in
/-- Entries with distinct keys are the same entry if their keys are equal. -/
theorem eq_of_same_keys {e f : Data × Data} (he : e ∈ entries) (hf : f ∈ entries)
    (hsame : e.1.same f.1 = true) : e = f := by
  let Differ (e f : Data × Data) : Prop := e.1.same f.1 = false ∧ f.1.same e.1 = false
  have hdiffer : entries.Pairwise Differ := by
    refine List.Pairwise.imp_of_mem (fun {e f} he hf hne => ⟨hne, ?_⟩) hdistinct
    rw [← Bool.not_eq_true]
    intro heq
    have hself := (hlawfulKeys f hf).same_self
    rw [(hlawfulKeys f hf).same_congr e.1 (hkeys e he) heq f.1, hne] at hself
    contradiction
  have hsymm : Std.Symm Differ := ⟨fun _ _ => And.symm⟩
  by_contra hne
  have hnot := (hdiffer.forall he hf hne).1
  rw [hsame] at hnot
  contradiction

include hkeys hvalues in
/-- If an entry is found among others then one of them has an equal key and an equal value. -/
theorem exists_of_isEntryOf {others : List (Data × Data)} {e : Data × Data} (he : e ∈ entries)
    (h : isEntryOf e others = true) :
    ∃ f ∈ others, e.1.same f.1 = true ∧ e.2.same f.2 = true := by
  obtain ⟨k, v⟩ := e
  rw [isEntryOf_eq, lookup?] at h
  cases hfind : others.find? fun f => k.alike f.1 with
  | none => simp [hfind] at h
  | some f =>
    simp only [hfind, Option.map_some] at h
    have hkey := List.find?_some hfind
    rw [(hkeys _ he).alike_eq] at hkey
    rw [(hvalues _ he).alike_eq] at h
    exact ⟨f, List.mem_of_find?_eq_some hfind, hkey, h⟩

include hdistinct hkeys hvalues hlawfulKeys

/-- If entries with distinct keys are found among as many others, the others are, in another order,
the places at which they are found. -/
theorem exists_perm_of_sameEntries {others : List (Data × Data)}
    (hothers : ∀ f ∈ others, f.1.IsComparable) (hlength : entries.length = others.length)
    (h : sameEntries entries others = true) :
    ∃ place : Data × Data → Data × Data, (entries.map place).Perm others ∧
      ∀ e ∈ entries, e.1.same (place e).1 = true ∧ e.2.same (place e).2 = true := by
  rw [sameEntries_eq_all, List.all_eq_true] at h
  have hfound : ∀ e ∈ entries, ∃ f ∈ others, e.1.same f.1 = true ∧ e.2.same f.2 = true :=
    fun e he => exists_of_isEntryOf hkeys hvalues he (h e he)
  choose! place hmem hsame using hfound
  have hnodup : (entries.map place).Nodup := by
    rw [List.Nodup, List.pairwise_map]
    refine List.Pairwise.imp_of_mem (fun {e f} he hf hne heq => ?_) hdistinct
    -- Both keys equal that of the place, so they equal the same values, each other among them.
    have hplace := hothers _ (hmem e he)
    have hf' := (hlawfulKeys f hf).same_congr (place e).1 hplace (heq ▸ (hsame f hf).1) f.1
    rw [(hlawfulKeys f hf).same_self, ← (hlawfulKeys e he).same_congr _ hplace (hsame e he).1,
      hne] at hf'
    contradiction
  have hsubset : entries.map place ⊆ others := by
    intro f hf
    obtain ⟨e, he, rfl⟩ := List.mem_map.mp hf
    exact hmem e he
  refine ⟨place, (hnodup.subperm hsubset).perm_of_length_le ?_, hsame⟩
  rw [List.length_map, hlength]

include hlawfulValues

/-- Entries with distinct keys are found among themselves. -/
theorem sameEntries_self : sameEntries entries entries = true := by
  rw [sameEntries_eq_all, List.all_eq_true]
  rintro ⟨k, v⟩ he
  have hkey : k.alike k = true := by
    rw [(hkeys _ he).alike_eq]
    exact (hlawfulKeys _ he).same_self
  have hfound : (entries.find? fun f => k.alike f.1).isSome = true :=
    List.find?_isSome.mpr ⟨(k, v), he, hkey⟩
  obtain ⟨f, hfind⟩ := Option.isSome_iff_exists.mp hfound
  have hsame := List.find?_some hfind
  rw [(hkeys _ he).alike_eq] at hsame
  obtain rfl := eq_of_same_keys hdistinct hkeys hlawfulKeys he (List.mem_of_find?_eq_some hfind)
    hsame
  rw [isEntryOf_eq, lookup?, hfind]
  simp only [Option.map_some]
  rw [(hvalues _ he).alike_eq]
  exact (hlawfulValues _ he).same_self

/-- Entries that are as many as others and found among them are as many as the others and found
where the others are. -/
theorem sameEntries_congr {others : List (Data × Data)}
    (hotherKeys : ∀ f ∈ others, f.1.IsComparable) (hotherValues : ∀ f ∈ others, f.2.IsComparable)
    (h : (entries.length == others.length && sameEntries entries others) = true)
    (more : List (Data × Data)) :
    (entries.length == more.length && sameEntries entries more) =
      (others.length == more.length && sameEntries others more) := by
  rw [Bool.and_eq_true, beq_iff_eq] at h
  obtain ⟨hlength, h⟩ := h
  obtain ⟨place, hperm, hsame⟩ := exists_perm_of_sameEntries hdistinct hkeys hvalues hlawfulKeys
    hotherKeys hlength h
  rw [hlength]
  congr 1
  rw [sameEntries_eq_all, sameEntries_eq_all, ← hperm.all_eq, List.all_map, Bool.eq_iff_iff,
    List.all_eq_true, List.all_eq_true]
  refine forall₂_congr fun e he => ?_
  have hplace : place e ∈ others := hperm.subset (List.mem_map_of_mem he)
  have hkey (other : Data) : e.1.alike other = (place e).1.alike other := by
    rw [(hkeys e he).alike_eq, (hotherKeys _ hplace).alike_eq]
    exact (hlawfulKeys e he).same_congr _ (hotherKeys _ hplace) (hsame e he).1 other
  have hvalue (other : Data) : e.2.alike other = (place e).2.alike other := by
    rw [(hvalues e he).alike_eq, (hotherValues _ hplace).alike_eq]
    exact (hlawfulValues e he).same_congr _ (hotherValues _ hplace) (hsame e he).2 other
  rw [Function.comp_apply, isEntryOf_eq e.1 e.2, isEntryOf_eq (place e).1 (place e).2]
  simp only [lookup?, hkey, hvalue]

/-- A mapping equals itself, and mappings that are equal equal the same mappings. -/
theorem IsLawful.dict : (dict entries).IsLawful := by
  constructor
  · rw [same, sameEntries_self hdistinct hkeys hvalues hlawfulKeys hlawfulValues, beq_self_eq_true]
    rfl
  · intro e he hsame other
    cases he with
    | dict _ hotherKeys hotherValues =>
      rw [same] at hsame
      cases other with
      | dict more =>
        rw [same, same]
        exact sameEntries_congr hdistinct hkeys hvalues hlawfulKeys hlawfulValues hotherKeys
          hotherValues hsame more
      | _ => rfl
    | _ => contradiction

/-- An object equals itself, and objects that are equal equal the same objects. -/
theorem IsLawful.object : (object entries).IsLawful := by
  constructor
  · rw [same, sameEntries_self hdistinct hkeys hvalues hlawfulKeys hlawfulValues, beq_self_eq_true]
    rfl
  · intro e he hsame other
    cases he with
    | object _ hotherKeys hotherValues =>
      rw [same] at hsame
      cases other with
      | object more =>
        rw [same, same]
        exact sameEntries_congr hdistinct hkeys hvalues hlawfulKeys hlawfulValues hotherKeys
          hotherValues hsame more
      | _ => rfl
    | _ => contradiction

end Entries

/-- A value that counts as an integer is compared as a value without parts. -/
theorem same_eq_sameScalar {d : Data} {n : Int} (h : d.toInt? = some n) (other : Data) :
    d.same other = sameScalar d other := by
  cases d with
  | bool b => rfl
  | int m => rfl
  | _ => contradiction

/-- Without floats, a value that counts as an integer equals what counts as the same integer. -/
theorem sameScalar_of_toInt? {d e : Data} {n : Int} (h : d.toInt? = some n) (he : e.IsComparable) :
    sameScalar d e = (e.toInt? == some n) := by
  simp only [sameScalar, h]
  cases he with
  | bool b => exact Bool.beq_comm
  | int m => exact Bool.beq_comm
  | _ => rfl

/-- A value that counts as an integer equals itself and the same values as what counts as the same
integer. -/
theorem IsLawful.of_toInt? {d : Data} {n : Int} (hd : d.IsComparable) (h : d.toInt? = some n) :
    d.IsLawful := by
  constructor
  · rw [same_eq_sameScalar h, sameScalar_of_toInt? h hd, h, beq_self_eq_true]
  · intro e he hsame other
    rw [same_eq_sameScalar h, sameScalar_of_toInt? h he, beq_iff_eq] at hsame
    rw [same_eq_sameScalar h, same_eq_sameScalar hsame, sameScalar_congr h hsame]

/-- Data without floats equals itself, and values that are equal equal the same values. -/
theorem IsComparable.isLawful {d : Data} (h : d.IsComparable) : d.IsLawful := by
  induction h with
  | null =>
    refine ⟨rfl, fun e he hsame other => ?_⟩
    cases he <;> first | rfl | contradiction
  | bool b => exact .of_toInt? (.bool b) rfl
  | int n => exact .of_toInt? (.int n) rfl
  | str s =>
    refine ⟨by simp [same, sameScalar, toInt?], fun e he hsame other => ?_⟩
    cases he with
    | str t =>
      have hst : s = t := by simpa [same, sameScalar, toInt?] using hsame
      rw [hst]
    | _ => contradiction
  | moment m =>
    refine ⟨m.same_self, fun e he hsame other => ?_⟩
    cases he with
    | moment n =>
      cases other with
      | moment other => exact Moment.same_congr hsame other
      | _ => rfl
    | _ => contradiction
  | list hitems ih => exact .list hitems ih
  | dict hdistinct hkeys hvalues ihKeys ihValues =>
    exact .dict hdistinct hkeys hvalues ihKeys ihValues
  | object hdistinct hkeys hvalues ihKeys ihValues =>
    exact .object hdistinct hkeys hvalues ihKeys ihValues

/-- Equality of data without floats is symmetric. -/
theorem IsComparable.same_comm {d e : Data} (hd : d.IsComparable) (he : e.IsComparable) :
    d.same e = e.same d := by
  have hsymm {a b : Data} (ha : a.IsComparable) (hb : b.IsComparable) (h : a.same b = true) :
      b.same a = true := by
    rw [← ha.isLawful.same_congr b hb h a]
    exact ha.isLawful.same_self
  rw [Bool.eq_iff_iff]
  exact ⟨hsymm hd he, hsymm he hd⟩

end Data

end EnumLabels
