import EnumLabels.Proofs.Data.Plain
import EnumLabels.Proofs.Json.Number
import EnumLabels.Proofs.Json.String

/-!
# Plain data is read back from JSON

The text of a value is read as the value whatever follows it, as long as that begins with a comma
or a closing bracket or brace. From the texts of their parts this passes to lists and mappings.

A mapping comes back with its entries in the order of their keys. What is read is therefore the
sorted data, which equals the same values.
-/

namespace EnumLabels.Json

/-- A text that begins with no blank and no closing bracket or brace. -/
def BeginsValue (text : List Char) : Prop :=
  ∃ c more, text = c :: more ∧ isSpace c = false ∧ c ≠ ']' ∧ c ≠ '}'

/-- A text from which a value is read, whatever may follow it. The reader has two units of fuel for
every character. -/
structure Denotes (text : List Char) (d : Data) : Prop where
  begins : BeginsValue text
  read : ∀ fuel rest, 2 * text.length ≤ fuel → EndsValue rest →
    readValue? fuel (text ++ rest) = some (d, rest)

/-- What follows the beginning of a value makes no difference to it. -/
theorem BeginsValue.append {text : List Char} (h : BeginsValue text) (rest : List Char) :
    BeginsValue (text ++ rest) := by
  obtain ⟨c, more, rfl, hfirst⟩ := h
  exact ⟨c, more ++ rest, rfl, hfirst⟩

/-- There is no blank to skip before a value. -/
theorem BeginsValue.skipSpaces_eq {text : List Char} (h : BeginsValue text) :
    skipSpaces text = text := by
  obtain ⟨c, more, rfl, hspace, -⟩ := h
  exact List.dropWhile_cons_of_neg (by simp [hspace])

/-- The fuel is never used up before a value. -/
theorem Denotes.of_succ {text : List Char} {d : Data} (hbegins : BeginsValue text)
    (hread : ∀ fuel rest, 2 * text.length ≤ fuel + 1 → EndsValue rest →
      readValue? (fuel + 1) (text ++ rest) = some (d, rest)) : Denotes text d where
  begins := hbegins
  read fuel rest hfuel hrest := by
    obtain ⟨c, more, htext, -⟩ := hbegins
    cases fuel with
    | zero =>
      rw [htext] at hfuel
      contradiction
    | succ fuel => exact hread fuel rest hfuel hrest

/-- Null is read from its word. -/
theorem denotes_null : Denotes "null".toList .null :=
  Denotes.of_succ ⟨'n', _, rfl, rfl, by decide⟩ fun _ _ _ _ => rfl

/-- A truth value is read from its word. -/
theorem denotes_bool (b : Bool) :
    Denotes (if b then "true".toList else "false".toList) (.bool b) := by
  cases b
  · exact Denotes.of_succ ⟨'f', _, rfl, rfl, by decide⟩ fun _ _ _ _ => rfl
  · exact Denotes.of_succ ⟨'t', _, rfl, rfl, by decide⟩ fun _ _ _ _ => rfl

/-- A text that begins like a number is read as a word or a number. -/
theorem readValue?_intText (fuel : Nat) (n : Int) (rest : List Char) :
    readValue? (fuel + 1) (Decimal.intText n ++ rest) = readScalar? (Decimal.intText n ++ rest) := by
  obtain ⟨sign, d, ds, htext, rfl | rfl, hdigit⟩ := Decimal.exists_intText_eq n
  · rw [htext, List.nil_append, List.cons_append, readValue?,
      if_neg (ne_of_isDigit hdigit rfl).symm, if_neg (ne_of_isDigit hdigit rfl).symm,
      if_neg (ne_of_isDigit hdigit rfl).symm]
  · rw [htext]
    rfl

/-- A whole number begins with a digit or a minus sign. -/
theorem beginsValue_intText (n : Int) : BeginsValue (Decimal.intText n) := by
  obtain ⟨sign, d, ds, htext, rfl | rfl, hdigit⟩ := Decimal.exists_intText_eq n
  · refine ⟨d, ds, htext, ?_, (ne_of_isDigit hdigit rfl).symm, (ne_of_isDigit hdigit rfl).symm⟩
    have hne : ∀ c, c.isDigit = false → (d == c) = false := fun c hc =>
      beq_eq_false_iff_ne.mpr (ne_of_isDigit hdigit hc).symm
    simp [isSpace, hne]
  · exact ⟨'-', d :: ds, htext, rfl, by decide⟩

/-- A whole number is read from its digits. -/
theorem denotes_int (n : Int) : Denotes (Decimal.intText n) (.int n) := by
  refine Denotes.of_succ (beginsValue_intText n) fun fuel rest _ hrest => ?_
  rw [readValue?_intText, readScalar?_intText n hrest]

/-- A string is read from its text between quotes. -/
theorem denotes_str (s : String) : Denotes (writeString s) (.str s) := by
  refine Denotes.of_succ ⟨'"', _, rfl, rfl, by decide⟩ fun fuel rest _ _ => ?_
  have hread := readString?_writeString s rest
  rw [writeString, List.cons_append, List.append_assoc, List.singleton_append, readValue?,
    if_pos rfl, hread]
  rfl

/-- The first of several parts stands at the beginning. -/
theorem BeginsValue.separated_cons {part : List Char} (h : BeginsValue part)
    (parts : List (List Char)) : BeginsValue (separated (part :: parts)) := by
  cases parts with
  | nil => exact h
  | cons next parts => exact h.append _

/-- One blank is skipped before a value. -/
theorem BeginsValue.skipSpaces_blank {text : List Char} (h : BeginsValue text) :
    skipSpaces (' ' :: text) = text :=
  h.skipSpaces_eq

/-- A part is separated from those behind it. -/
theorem separated_map_cons {α : Type} (f : α → List Char) (p q : α) (parts : List α) :
    separated ((p :: q :: parts).map f) = f p ++ ',' :: ' ' :: separated ((q :: parts).map f) :=
  rfl

/-- The items of a list are read up to its closing bracket. -/
theorem readItems?_separated {parts : List (List Char × Data)} (hne : parts ≠ [])
    (hparts : ∀ p ∈ parts, Denotes p.1 p.2) (fuel : Nat)
    (hfuel : 2 * (separated (parts.map (·.1))).length ≤ fuel) (rest : List Char) :
    readItems? (fuel + 1) (separated (parts.map (·.1)) ++ ']' :: rest) =
      some (parts.map (·.2), rest) := by
  induction parts generalizing fuel with
  | nil => contradiction
  | cons p parts ih =>
    obtain ⟨hp, hmore⟩ := List.forall_mem_cons.mp hparts
    cases parts with
    | nil =>
      have hread := hp.read fuel (']' :: rest) hfuel (EndsValue.cons (by simp) rest)
      rw [List.map_singleton, separated, readItems?, hread]
      rfl
    | cons q parts =>
      have hbegins : BeginsValue (separated ((q :: parts).map (·.1)) ++ ']' :: rest) :=
        ((List.forall_mem_cons.mp hmore).1.begins.separated_cons _).append _
      rw [separated_map_cons] at hfuel ⊢
      rw [List.length_append, List.length_cons, List.length_cons] at hfuel
      obtain ⟨fuel, rfl⟩ : ∃ m, fuel = m + 1 := ⟨fuel - 1, by omega⟩
      have hread := hp.read (fuel + 1)
        (',' :: ' ' :: (separated ((q :: parts).map (·.1)) ++ ']' :: rest)) (by omega)
        (EndsValue.cons (by simp) _)
      have hitems := ih (List.cons_ne_nil q parts) hmore fuel (by omega)
      rw [List.append_assoc, readItems?, List.cons_append, List.cons_append, hread]
      change (readItems? (fuel + 1) (skipSpaces _) >>= _) = _
      rw [hbegins.skipSpaces_blank, hitems]
      rfl

/-- The first item of a list follows its opening bracket. -/
theorem readValue?_bracket (fuel : Nat) {text : List Char} (h : BeginsValue text) :
    readValue? (fuel + 1) ('[' :: text) =
      (readItems? fuel text).map fun r => (.list r.1, r.2) := by
  rw [readValue?, if_neg (by decide), if_pos rfl, h.skipSpaces_eq]
  obtain ⟨c, more, rfl, -, hbracket, -⟩ := h
  split
  · next rest heq => exact absurd (List.cons.inj heq).1 hbracket
  · rfl

/-- A list is read from the texts of its items. -/
theorem denotes_list {parts : List (List Char × Data)} (hparts : ∀ p ∈ parts, Denotes p.1 p.2) :
    Denotes ('[' :: (separated (parts.map (·.1)) ++ [']'])) (.list (parts.map (·.2))) := by
  refine Denotes.of_succ ⟨'[', _, rfl, rfl, by decide⟩ fun fuel rest hfuel _ => ?_
  cases parts with
  | nil => rfl
  | cons p parts =>
    have hbegins : BeginsValue (separated ((p :: parts).map (·.1)) ++ ']' :: rest) :=
      ((List.forall_mem_cons.mp hparts).1.begins.separated_cons _).append _
    rw [List.length_cons, List.length_append, List.length_singleton] at hfuel
    obtain ⟨fuel, rfl⟩ : ∃ m, fuel = m + 1 := ⟨fuel - 1, by omega⟩
    have hitems := readItems?_separated (List.cons_ne_nil p parts) hparts fuel (by omega) rest
    rw [List.cons_append, List.append_assoc, List.singleton_append,
      readValue?_bracket (fuel + 1) hbegins, hitems]
    rfl

/-- The text of an entry of a mapping. -/
def entryText (key : String) (value : List Char) : List Char :=
  writeString key ++ ':' :: ' ' :: value

/-- An entry of a mapping begins with the quote of its key. -/
theorem beginsValue_entryText (key : String) (value : List Char) :
    BeginsValue (entryText key value) :=
  ⟨'"', _, rfl, rfl, by decide⟩

/-- The key of an entry is read, then its value, and then what follows the entry. -/
theorem readEntries?_entryText {fuel : Nat} {key : String} {value rest after : List Char} {d : Data}
    (hvalue : BeginsValue value) (hread : readValue? fuel (value ++ rest) = some (d, after)) :
    readEntries? (fuel + 1) (entryText key value ++ rest) =
      match skipSpaces after with
      | '}' :: after => some ([(.str key, d)], after)
      | ',' :: after => (readEntries? fuel (skipSpaces after)).bind fun r =>
          some ((.str key, d) :: r.1, r.2)
      | _ => none := by
  have htext : entryText key value ++ rest =
      '"' :: (key.toList.flatMap writeChar ++ '"' :: ':' :: ' ' :: (value ++ rest)) := by
    simp [entryText, writeString]
  have hkey := readString?_writeString key (':' :: ' ' :: (value ++ rest))
  rw [htext, readEntries?]
  change (readString? _ >>= _) = _
  rw [hkey]
  change (readValue? fuel (skipSpaces _) >>= _) = _
  rw [(hvalue.append rest).skipSpaces_blank, hread]
  rfl

/-- The entries of a mapping are read up to its closing brace. -/
theorem readEntries?_separated {parts : List (String × List Char × Data)} (hne : parts ≠ [])
    (hparts : ∀ p ∈ parts, Denotes p.2.1 p.2.2) (fuel : Nat)
    (hfuel : 2 * (separated (parts.map fun p => entryText p.1 p.2.1)).length ≤ fuel)
    (rest : List Char) :
    readEntries? (fuel + 1) (separated (parts.map fun p => entryText p.1 p.2.1) ++ '}' :: rest) =
      some (Data.ofFields (parts.map fun p => (p.1, p.2.2)), rest) := by
  induction parts generalizing fuel with
  | nil => contradiction
  | cons p parts ih =>
    obtain ⟨hp, hmore⟩ := List.forall_mem_cons.mp hparts
    have hlength : p.2.1.length ≤ (entryText p.1 p.2.1).length := by
      rw [entryText, List.length_append, List.length_cons, List.length_cons]
      omega
    cases parts with
    | nil =>
      rw [List.map_singleton, separated] at hfuel ⊢
      have hread := hp.read fuel ('}' :: rest) (by omega) (EndsValue.cons (by simp) rest)
      rw [readEntries?_entryText hp.begins hread]
      rfl
    | cons q parts =>
      have hbegins : BeginsValue
          (separated ((q :: parts).map fun p => entryText p.1 p.2.1) ++ '}' :: rest) :=
        ((beginsValue_entryText q.1 q.2.1).separated_cons _).append _
      rw [separated_map_cons] at hfuel ⊢
      rw [List.length_append, List.length_cons, List.length_cons] at hfuel
      obtain ⟨fuel, rfl⟩ : ∃ m, fuel = m + 1 := ⟨fuel - 1, by omega⟩
      have hread := hp.read (fuel + 1)
        (',' :: ' ' :: (separated ((q :: parts).map fun p => entryText p.1 p.2.1) ++ '}' :: rest))
        (by omega) (EndsValue.cons (by simp) _)
      have hentries := ih (List.cons_ne_nil q parts) hmore fuel (by omega)
      rw [List.append_assoc, List.cons_append, List.cons_append,
        readEntries?_entryText hp.begins hread]
      change (readEntries? (fuel + 1) (skipSpaces _)).bind _ = _
      rw [hbegins.skipSpaces_blank, hentries]
      rfl

/-- The first entry of a mapping follows its opening brace. -/
theorem readValue?_brace (fuel : Nat) {text : List Char} (h : BeginsValue text) :
    readValue? (fuel + 1) ('{' :: text) =
      (readEntries? fuel text).map fun r => (.dict (Data.ofPairs r.1), r.2) := by
  rw [readValue?, if_neg (by decide), if_neg (by decide), if_pos rfl, h.skipSpaces_eq]
  obtain ⟨c, more, rfl, -, -, hbrace⟩ := h
  split
  · next rest heq => exact absurd (List.cons.inj heq).1 hbrace
  · rfl

/-- A mapping is read from the texts of its entries. -/
theorem denotes_dict {parts : List (String × List Char × Data)} (hkeys : (parts.map (·.1)).Nodup)
    (hparts : ∀ p ∈ parts, Denotes p.2.1 p.2.2) :
    Denotes ('{' :: (separated (parts.map fun p => entryText p.1 p.2.1) ++ ['}']))
      (.dict (Data.ofFields (parts.map fun p => (p.1, p.2.2)))) := by
  refine Denotes.of_succ ⟨'{', _, rfl, rfl, by decide⟩ fun fuel rest hfuel _ => ?_
  cases parts with
  | nil => rfl
  | cons p parts =>
    have hbegins : BeginsValue
        (separated ((p :: parts).map fun p => entryText p.1 p.2.1) ++ '}' :: rest) :=
      ((beginsValue_entryText p.1 p.2.1).separated_cons _).append _
    rw [List.length_cons, List.length_append, List.length_singleton] at hfuel
    obtain ⟨fuel, rfl⟩ : ∃ m, fuel = m + 1 := ⟨fuel - 1, by omega⟩
    have hentries := readEntries?_separated (List.cons_ne_nil p parts) hparts fuel (by omega) rest
    have hfields : (((p :: parts).map fun p => (p.1, p.2.2)).map (·.1)).Nodup := by
      rwa [List.map_map]
    rw [List.cons_append, List.append_assoc, List.singleton_append,
      readValue?_brace (fuel + 1) hbegins, hentries, Option.map_some, Data.ofPairs_ofFields hfields]

/-- If items are written as texts that denote their sorted values, then so is the list of them. -/
theorem writeItems?_of_forall {items : List Data}
    (h : ∀ d ∈ items, ∃ text, write? d = some text ∧ Denotes text d.sorted) :
    ∃ parts : List (List Char × Data), writeItems? items = some (parts.map (·.1)) ∧
      parts.map (·.2) = items.map Data.sorted ∧ ∀ p ∈ parts, Denotes p.1 p.2 := by
  induction items with
  | nil => exact ⟨[], rfl, rfl, by simp⟩
  | cons d items ih =>
    obtain ⟨hd, hitems⟩ := List.forall_mem_cons.mp h
    obtain ⟨text, htext, hdenotes⟩ := hd
    obtain ⟨parts, hparts, hdata, hall⟩ := ih hitems
    refine ⟨(text, d.sorted) :: parts, ?_, ?_, List.forall_mem_cons.mpr ⟨hdenotes, hall⟩⟩
    · rw [writeItems?, htext, hparts]
      rfl
    · rw [List.map_cons, List.map_cons, hdata]

/-- If the values of fields are written as texts that denote their sorted values, then the fields
are written in front of them. -/
theorem writeEntries?_of_forall {fields : List (String × Data)}
    (h : ∀ f ∈ fields, ∃ text, write? f.2 = some text ∧ Denotes text f.2.sorted) :
    ∃ parts : List (String × List Char × Data),
      writeEntries? (Data.ofFields fields) =
        some (parts.map fun p => (.str p.1, entryText p.1 p.2.1)) ∧
      (parts.map fun p => (p.1, p.2.2)) = (fields.map fun f => (f.1, f.2.sorted)) ∧
      ∀ p ∈ parts, Denotes p.2.1 p.2.2 := by
  induction fields with
  | nil => exact ⟨[], rfl, rfl, by simp⟩
  | cons f fields ih =>
    obtain ⟨hf, hfields⟩ := List.forall_mem_cons.mp h
    obtain ⟨text, htext, hdenotes⟩ := hf
    obtain ⟨parts, hparts, hdata, hall⟩ := ih hfields
    refine ⟨(f.1, text, f.2.sorted) :: parts, ?_, ?_, List.forall_mem_cons.mpr ⟨hdenotes, hall⟩⟩
    · rw [Data.ofFields] at hparts ⊢
      rw [List.map_cons, writeEntries?, hparts, writeEntry?, htext]
      rfl
    · rw [List.map_cons, List.map_cons, hdata]

/-- Whether the key of an entry does not come after the key of another one. -/
def partLe (p q : String × List Char × Data) : Bool := decide (p.1 ≤ q.1)

/-- The entries of a mapping with string keys are written in the order of their keys. -/
theorem write?_dict_ofFields {fields : List (String × Data)}
    {parts : List (String × List Char × Data)}
    (h : writeEntries? (Data.ofFields fields) =
      some (parts.map fun p => (.str p.1, entryText p.1 p.2.1))) :
    write? (.dict (Data.ofFields fields)) =
      some ('{' :: (separated ((parts.mergeSort partLe).map fun p => entryText p.1 p.2.1) ++
        ['}'])) := by
  have hall : ((parts.map fun p => (Data.str p.1, entryText p.1 p.2.1)).all
      fun e => Data.isString e.1) = true := by
    rw [List.all_map, List.all_eq_true]
    intro p _
    rfl
  have hsort : Data.sortByKey? (parts.map fun p => (Data.str p.1, entryText p.1 p.2.1)) =
      some ((parts.mergeSort partLe).map fun p => (Data.str p.1, entryText p.1 p.2.1)) := by
    rw [Data.sortByKey?, if_pos hall, List.map_mergeSort]
    intro p _ q _
    rfl
  rw [write?, h]
  change (Data.sortByKey? _ >>= _) = _
  rw [hsort]
  change some ('{' :: (separated (List.map _ (List.map _ _)) ++ ['}'])) = _
  rw [List.map_map]
  rfl

/-- Plain data is written as a text that denotes it with its keys in order. -/
theorem write?_of_isPlain {d : Data} (h : d.IsPlain) :
    ∃ text, write? d = some text ∧ Denotes text d.sorted := by
  induction h with
  | null => exact ⟨_, rfl, denotes_null⟩
  | bool b => exact ⟨_, rfl, denotes_bool b⟩
  | int n => exact ⟨_, rfl, denotes_int n⟩
  | str s => exact ⟨_, rfl, denotes_str s⟩
  | @list items _ ih =>
    obtain ⟨parts, hparts, hdata, hall⟩ := writeItems?_of_forall ih
    refine ⟨_, by rw [write?, hparts, Option.map_some], ?_⟩
    rw [Data.sorted_list, ← hdata]
    exact denotes_list hall
  | @dict fields hkeys _ ih =>
    obtain ⟨parts, hparts, hdata, hall⟩ := writeEntries?_of_forall ih
    have hsorted : Data.sortedFields fields =
        (parts.mergeSort partLe).map fun p => (p.1, p.2.2) := by
      rw [Data.sortedFields, ← hdata, List.map_mergeSort]
      intro p _ q _
      rfl
    have hnodup := Data.nodup_sortedFields hkeys
    rw [hsorted, List.map_map] at hnodup
    refine ⟨_, write?_dict_ofFields hparts, ?_⟩
    rw [Data.sorted_dict_ofFields, hsorted]
    exact denotes_dict hnodup fun p hp => hall p (List.mem_mergeSort.mp hp)

/-- Plain data survives JSON: its text is read as the data with its keys in order. -/
theorem text?_of_isPlain {d : Data} (h : d.IsPlain) :
    ∃ text, text? d = some text ∧ data? text = some d.sorted := by
  obtain ⟨text, htext, hdenotes⟩ := write?_of_isPlain h
  refine ⟨String.ofList text, by rw [text?, htext, Option.map_some], ?_⟩
  have hread := hdenotes.read (2 * text.length + 2) [] (by omega) EndsValue.nil
  rw [List.append_nil] at hread
  rw [data?, String.toList_ofList, read?, hdenotes.begins.skipSpaces_eq, hread]
  rfl

end EnumLabels.Json
