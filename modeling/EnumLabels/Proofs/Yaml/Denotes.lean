import EnumLabels.Proofs.Yaml.Block
import EnumLabels.Proofs.Yaml.Key
import EnumLabels.Proofs.Yaml.PlainData
import EnumLabels.Proofs.Yaml.Reread
import EnumLabels.Yaml.Reader
import EnumLabels.Yaml.Writer

/-!
# Texts that denote data

A text denotes data behind a dash, or behind the colon of a key, if its tokens are those of a node
for the data. Lines of items and of entries denote lists and mappings, from texts for their parts.
A mapping at the first column is the data of the whole text.
-/

namespace EnumLabels.Yaml

/-- A text from which data is read behind a dash, or behind the colon of a key. -/
structure Denotes (behindDash : Bool) (indent : Nat) (text : List Char) (d : Data) : Prop where
  ordinary : text.all isOrdinary = true
  reads : ∃ tokens node, Lexer.IsInside behindDash indent text tokens ∧
    Node.IsNode behindDash tokens node ∧ node.toData? = some d

/-- Lines from which the items of a list are read. -/
structure DenotesItems (indent : Nat) (text : List Char) (items : List Data) : Prop where
  ordinary : text.all isOrdinary = true
  reads : ∃ tokens nodes,
    Lexer.IsBlockLine .blockSequenceStart indent text (.blockEntry :: tokens) ∧
      Node.IsItems (.blockEntry :: tokens) nodes ∧ Node.itemsToData? nodes = some items

/-- A line on which a key stands before the colon and the value behind it. -/
def DenotesField (indent : Nat) (text : List Char) (key : String) (d : Data) : Prop :=
  ∃ written value, text = written ++ ':' :: value ∧ DenotesKey written key ∧
    Denotes false indent value d

/-- Lines from which the fields of a mapping are read. -/
structure DenotesFields (indent : Nat) (text : List Char) (fields : List (String × Data)) :
    Prop where
  ordinary : text.all isOrdinary = true
  reads : ∃ tokens entries, Lexer.IsBlockLine .blockMappingStart indent text tokens ∧
    Node.IsEntries tokens entries ∧
    Node.entriesToItems? entries = some (fields.map fun f => .entry (.str f.1) f.2)

section Scalars

variable {behindDash : Bool} {indent column : Nat}

/-- A text on its own denotes what its node does. -/
theorem Denotes.of_isAtom {text : List Char} {tokens : List Token} {node : Node} {d : Data}
    (hordinary : text.all isOrdinary = true) (hatom : Lexer.IsAtom indent text tokens)
    (hhead : ∀ more, ∀ c ∈ (text ++ more).head?, c ≠ '#' ∧ isGap c = false ∧ isBreak c = false)
    (hnode : Node.IsNode behindDash tokens node) (hdata : node.toData? = some d) :
    Denotes behindDash indent (' ' :: text) d :=
  ⟨hordinary, tokens, node, hatom.inside hhead behindDash, hnode, hdata⟩

/-- Safe plain text denotes what it looks like. -/
theorem denotes_plain {text : List Char} {d : Data} (hsafe : isSafePlain text = true)
    (hne : text ≠ []) (hdata : (Node.plain text).toData? = some d) :
    Denotes behindDash indent (' ' :: foldPlain true (indent + 2) column false text) d := by
  have hwords := isWords_of_isSafePlain hsafe hne
  refine Denotes.of_isAtom (all_isOrdinary_foldPlain hwords.ordinary)
    (Lexer.isAtom_plain hsafe hne indent column) (fun more => ?_) (Node.isNode_plain _ text) hdata
  obtain ⟨c, rest, hfirst, hc⟩ :=
    (foldsTo_foldPlain hwords true false (indent + 2) column).head_append more
  simpa [hfirst] using hc

/-- Plain data denotes itself. -/
theorem IsPlainData.denotes_write {text : List Char} {d : Data} (h : IsPlainData text d)
    (tagLength : Nat) :
    Denotes behindDash indent
      (' ' :: (Scalar.ofPlain text tagLength).write true (indent + 2) column) d := by
  have hwrite : (Scalar.ofPlain text tagLength).write true (indent + 2) column =
      foldPlain true (indent + 2) column false text := by
    simp only [Scalar.ofPlain, Scalar.write, String.toList_ofList]
  rw [hwrite]
  refine denotes_plain h.safe h.nonempty ?_
  rw [Node.toData?, Node.scalar?, h.denotes]
  · rintro items heq
    contradiction
  · rintro entries heq
    contradiction

/-- A text between apostrophes denotes itself. -/
theorem denotes_singleQuoted {s : String} (hsafe : isSafeSingle s.toList = true) :
    Denotes behindDash indent
      (' ' :: '\'' :: (foldSingle true (indent + 2) (column + 1) none s.toList ++ ['\'']))
      (.str s) := by
  have hread (rest : List Char) (hrest : rest.head? ≠ some '\'') :
      Lexer.singleQuoted (foldSingle true (indent + 2) (column + 1) none s.toList ++ ['\''] ++
        rest) = .ok (.chars s, rest) := by
    rw [Lexer.singleQuoted, readSingle?_written (Nat.succ_pos _) true _ hsafe hrest]
    simp
  have hordinary := all_isOrdinary_foldSingle true (indent + 2) (column + 1) none
    (by rw [isSafeSingle, Bool.and_eq_true] at hsafe; exact hsafe.1)
  refine Denotes.of_isAtom ?_ (Lexer.isAtom_quoted Lexer.readToken_apostrophe hread) ?_
    (Node.isNode_quoted _ _) rfl
  · rw [List.all_cons, List.all_append, hordinary]
    rfl
  · simp [isGap, isBreak]

/-- A text between double quotes denotes the characters that are read of it. -/
theorem denotes_doubleQuoted (s : String) (hcolumn : indent < column) :
    Denotes behindDash indent (' ' :: writeDouble true (indent + 2) column s)
      (.str (String.ofList (overfold (isNarrow true (indent + 2)) true s.toList))) := by
  have hread (rest : List Char) : Lexer.doubleQuoted (foldDouble true (indent + 2) (column + 1)
      true false (s.toList.map Char.toNat) ++ ['"'] ++ rest) =
        .ok (.chars (String.ofList (overfold (isNarrow true (indent + 2)) true s.toList)), rest) := by
    rw [Lexer.doubleQuoted, readDouble_written (Nat.succ_pos _) true (by omega)]
    change Except.ok (CodeString.ofPoints _, rest) = _
    rw [CodeString.ofPoints_toNat]
  have hordinary := all_isOrdinary_foldDouble true (indent + 2) s.toList (column + 1) true false
  simp only [writeDouble, CodeString.toPoints]
  refine Denotes.of_isAtom ?_
    (Lexer.isAtom_quoted Lexer.readToken_quote fun rest _ => hread rest) ?_
    (Node.isNode_quoted _ _) rfl
  · rw [List.all_cons, List.all_append, hordinary]
    rfl
  · simp [isGap, isBreak]

/-- A string denotes what is read of it. -/
theorem denotes_string (s : String) (hcolumn : indent < column) :
    Denotes behindDash indent (' ' :: (Scalar.ofString s).write true (indent + 2) column)
      (.str (rereadString (indent + 2) s)) := by
  have hself (h : styleOf s.toList ≠ .double) : rereadString (indent + 2) s = s := if_neg h
  rw [write_ofString]
  cases hstyle : styleOf s.toList with
  | plain =>
    have hsafe : isSafePlain s.toList = true ∧ Plain.isText s.toList = true := by
      unfold styleOf at hstyle
      split_ifs at hstyle with hplain
      rwa [Bool.and_eq_true] at hplain
    have hne : s.toList ≠ [] := by
      intro hnil
      rw [hnil] at hsafe
      exact absurd hsafe.2 (by decide)
    have hitself := plainOf_of_isText hsafe.2
    rw [hself (by simp [hstyle])]
    exact denotes_plain hsafe.1 hne (by simp [Node.toData?, Node.scalar?, hitself])
  | single =>
    have hsafe : isSafeSingle s.toList = true := by
      unfold styleOf at hstyle
      split_ifs at hstyle with hplain hsingle
      exact hsingle
    rw [hself (by simp [hstyle])]
    exact denotes_singleQuoted hsafe
  | double =>
    rw [rereadString, if_pos hstyle]
    exact denotes_doubleQuoted s hcolumn

end Scalars

section Collections

variable {behindDash : Bool} {indent : Nat} {text below : List Char}

/-- Square brackets denote a list without items. -/
theorem denotes_squareBrackets :
    Denotes behindDash indent [' ', '[', ']'] (.list []) :=
  Denotes.of_isAtom rfl (Lexer.isAtom_squareBrackets indent) (by simp [isGap, isBreak])
    (Node.isNode_squareBrackets _) rfl

/-- Braces denote a mapping without entries. -/
theorem denotes_braces : Denotes behindDash indent [' ', '\x7b', '\x7d'] (.dict []) :=
  Denotes.of_isAtom rfl (Lexer.isAtom_braces indent) (by simp [isGap, isBreak])
    (Node.isNode_braces _) rfl

/-- What stands behind a dash is the last item of a list. -/
theorem Denotes.lastItem {d : Data} (h : Denotes true indent text d) :
    DenotesItems indent ('-' :: text) [d] := by
  obtain ⟨tokens, node, hinside, hnode, hdata⟩ := h.reads
  have hitems := Node.IsItems.nil.cons hnode
  rw [List.append_nil] at hitems
  exact ⟨h.ordinary, tokens, [node], hinside.item, hitems, by simp [Node.itemsToData?, hdata]⟩

/-- What stands behind a dash is an item before those below it. -/
theorem Denotes.consItem {d : Data} {items : List Data} (h : Denotes true indent text d)
    (hbelow : DenotesItems indent below items) :
    DenotesItems indent ('-' :: text ++ newline indent ++ below) (d :: items) := by
  obtain ⟨tokens, node, hinside, hnode, hdata⟩ := h.reads
  obtain ⟨more, nodes, hlines, hitems, hrest⟩ := hbelow.reads
  refine ⟨?_, tokens ++ .blockEntry :: more, node :: nodes, hinside.item.append hlines,
    hitems.cons hnode, by simp [Node.itemsToData?, hdata, hrest]⟩
  simp [isOrdinary, h.ordinary, hbelow.ordinary]

/-- Items on lines of their own are the items of a list. -/
theorem denotesItems_onLines {parts : List (List Char × Data)} (hne : parts ≠ [])
    (h : ∀ p ∈ parts, Denotes true indent p.1 p.2) :
    DenotesItems indent (onLines indent (parts.map fun p => '-' :: p.1)) (parts.map (·.2)) := by
  induction parts with
  | nil => contradiction
  | cons p parts ih =>
    obtain ⟨hp, hparts⟩ := List.forall_mem_cons.mp h
    cases parts with
    | nil => exact hp.lastItem
    | cons q parts => exact hp.consItem (ih (by simp) hparts)

/-- A list may start behind a dash. -/
theorem DenotesItems.nested {items : List Data} (h : DenotesItems (indent + 2) text items) :
    Denotes true indent (' ' :: text) (.list items) := by
  obtain ⟨tokens, nodes, hlines, hitems, hdata⟩ := h.reads
  exact ⟨h.ordinary, _, .sequence nodes, hlines.behindDash, hitems.isNode true,
    by simp [Node.toData?, hdata]⟩

/-- A list may start below a colon. -/
theorem DenotesItems.belowColon {items : List Data} (h : DenotesItems indent text items) :
    Denotes false indent (newline indent ++ text) (.list items) := by
  obtain ⟨tokens, nodes, hlines, hitems, hdata⟩ := h.reads
  refine ⟨?_, _, .sequence nodes, hlines.levelWithColon, hitems.isNode_level,
    by simp [Node.toData?, hdata]⟩
  rw [List.all_append, all_isOrdinary_newline, h.ordinary, Bool.and_self]

/-- A field on a line is the last one of a mapping. -/
theorem DenotesField.lastField {key : String} {d : Data} (h : DenotesField indent text key d) :
    DenotesFields indent text [(key, d)] := by
  obtain ⟨written, value, rfl, ⟨t, keyNode, hlexed, hread, hdenotes, hmerge⟩, hvalue⟩ := h
  obtain ⟨tokens, node, hinside, hnode, hdata⟩ := hvalue.reads
  have hentries := Node.IsEntries.nil.cons hread hnode
  rw [List.append_nil] at hentries
  refine ⟨?_, _, [(keyNode, node)], hinside.entry hlexed, hentries,
    by simp [Node.entriesToItems?, Node.entryToItem?, hmerge, hdenotes, hdata]⟩
  simp [isOrdinary, hlexed.ordinary, hvalue.ordinary]

/-- A field on a line is a field of a mapping before those below it. -/
theorem DenotesField.consField {key : String} {d : Data} {fields : List (String × Data)}
    (h : DenotesField indent text key d) (hbelow : DenotesFields indent below fields) :
    DenotesFields indent (text ++ newline indent ++ below) ((key, d) :: fields) := by
  obtain ⟨written, value, rfl, ⟨t, keyNode, hlexed, hread, hdenotes, hmerge⟩, hvalue⟩ := h
  obtain ⟨tokens, node, hinside, hnode, hdata⟩ := hvalue.reads
  obtain ⟨more, entries, hlines, hentries, hrest⟩ := hbelow.reads
  refine ⟨?_, _, (keyNode, node) :: entries, (hinside.entry hlexed).append hlines,
    hentries.cons hread hnode,
    by simp [Node.entriesToItems?, Node.entryToItem?, hmerge, hdenotes, hdata, hrest]⟩
  simp [isOrdinary, hlexed.ordinary, hvalue.ordinary, hbelow.ordinary]

/-- Fields on lines of their own are the fields of a mapping. -/
theorem denotesFields_onLines (indent : Nat) {parts : List (String × List Char × Data)}
    (hne : parts ≠ []) (h : ∀ p ∈ parts, DenotesField indent p.2.1 p.1 p.2.2) :
    DenotesFields indent (onLines indent (parts.map (·.2.1)))
      (parts.map fun p => (p.1, p.2.2)) := by
  induction parts with
  | nil => contradiction
  | cons p parts ih =>
    obtain ⟨hp, hparts⟩ := List.forall_mem_cons.mp h
    cases parts with
    | nil => exact hp.lastField
    | cons q parts => exact hp.consField (ih (by simp) hparts)

/-- Entries that merge nothing are the pairs of a mapping. -/
theorem pairsOfItems_entries (fields : List (String × Data)) :
    Node.pairsOfItems (fields.map fun f => .entry (.str f.1) f.2) = Data.ofFields fields := by
  rw [Node.pairsOfItems, List.flatMap_map, List.flatMap_map, Data.ofFields, List.map_eq_flatMap,
    List.flatMap_eq_nil_iff.mpr fun _ _ => rfl, List.nil_append]

/-- A mapping stores its fields if their keys differ. -/
theorem mapping_toData? {entries : List (Node × Node)} {fields : List (String × Data)}
    (hkeys : (fields.map (·.1)).Nodup)
    (h : Node.entriesToItems? entries = some (fields.map fun f => .entry (.str f.1) f.2)) :
    (Node.mapping entries).toData? = some (.dict (Data.ofFields fields)) := by
  rw [Node.toData?, h, Option.map_some, pairsOfItems_entries, Data.ofPairs_ofFields hkeys]

/-- A mapping may start behind a dash. -/
theorem DenotesFields.nested {fields : List (String × Data)} (hkeys : (fields.map (·.1)).Nodup)
    (h : DenotesFields (indent + 2) text fields) :
    Denotes true indent (' ' :: text) (.dict (Data.ofFields fields)) := by
  obtain ⟨tokens, entries, hlines, hentries, hdata⟩ := h.reads
  exact ⟨h.ordinary, _, .mapping entries, hlines.behindDash, hentries.isNode true,
    mapping_toData? hkeys hdata⟩

/-- A mapping may start below a colon. -/
theorem DenotesFields.belowColon {fields : List (String × Data)}
    (hkeys : (fields.map (·.1)).Nodup) (h : DenotesFields (indent + 2) text fields) :
    Denotes false indent (newline (indent + 2) ++ text) (.dict (Data.ofFields fields)) := by
  obtain ⟨tokens, entries, hlines, hentries, hdata⟩ := h.reads
  refine ⟨?_, _, .mapping entries, hlines.belowColon, hentries.isNode false,
    mapping_toData? hkeys hdata⟩
  rw [List.all_append, all_isOrdinary_newline, h.ordinary, Bool.and_self]

/-- A mapping at the first column is read from the whole text. -/
theorem DenotesFields.read_eq {fields : List (String × Data)} (hkeys : (fields.map (·.1)).Nodup)
    (h : DenotesFields 0 text fields) :
    read (text ++ ['\n']) = .ok (.dict (Data.ofFields fields)) := by
  obtain ⟨tokens, entries, hlines, hentries, hdata⟩ := h.reads
  have hordinary : (text ++ ['\n']).all isOrdinary = true := by
    rw [List.all_append, h.ordinary]
    rfl
  rw [read, prepare?_of_all_isOrdinary hordinary]
  change (Node.ofTokens (Yaml.tokens (text ++ ['\n'])) >>= _) = _
  rw [hlines.tokens_eq, Node.ofTokens_mapping hentries]
  simp only [bind, Except.bind, mapping_toData? hkeys hdata]
  rfl

end Collections

end EnumLabels.Yaml
