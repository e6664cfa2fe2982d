import EnumLabels.Yaml.Node

/-!
# The tree is read from its tokens

The tokens of a node are read as the node with two units of fuel for every token and two more. A
list at the column of its mapping has no token for its end, so no dash may follow it.
-/

namespace EnumLabels.Yaml.Node

/-- Tokens from which a node is read behind a dash, or behind the colon of a key. -/
structure IsNode (behindDash : Bool) (tokens : List Token) (node : Node) : Prop where
  starts : ∀ rest, endsBlockNode behindDash (tokens ++ rest) = false
  reads : ∀ fuel rest, 2 * tokens.length + 2 ≤ fuel →
    (behindDash = false → rest.head? ≠ some .blockEntry) →
    read true (!behindDash) fuel (tokens ++ rest) = .ok (node, rest)

/-- Tokens from which the items of a list are read up to its end. -/
structure IsItems (tokens : List Token) (nodes : List Node) : Prop where
  deeper : ∀ fuel rest, 2 * tokens.length + 1 ≤ fuel →
    readBlockItems fuel (tokens ++ .blockEnd :: rest) = .ok (nodes, rest)
  level : ∀ fuel rest, 2 * tokens.length + 1 ≤ fuel → rest.head? ≠ some .blockEntry →
    readLevelItems fuel (tokens ++ rest) = .ok (nodes, rest)

/-- Tokens from which the entries of a mapping are read up to its end. -/
structure IsEntries (tokens : List Token) (entries : List (Node × Node)) : Prop where
  starts : ∀ rest, (tokens ++ Token.blockEnd :: rest).head? ≠ some .blockEntry
  reads : ∀ fuel rest, 2 * tokens.length + 1 ≤ fuel →
    readBlockEntries fuel (tokens ++ .blockEnd :: rest) = .ok (entries, rest)

section Scalars

variable (behindDash : Bool)

/-- Plain text is a node. -/
theorem isNode_plain (text : List Char) : IsNode behindDash [.plain text] (plain text) where
  starts _ := rfl
  reads fuel rest hfuel _ := by
    obtain ⟨fuel, rfl⟩ : ∃ m, fuel = m + 1 := ⟨fuel - 1, by omega⟩
    rfl

/-- Quoted text is a node. -/
theorem isNode_quoted (text : CodeString) : IsNode behindDash [.quoted text] (quoted text) where
  starts _ := rfl
  reads fuel rest hfuel _ := by
    obtain ⟨fuel, rfl⟩ : ∃ m, fuel = m + 1 := ⟨fuel - 1, by omega⟩
    rfl

/-- Square brackets are a list without items. -/
theorem isNode_squareBrackets :
    IsNode behindDash [.flowSequenceStart, .flowSequenceEnd] (sequence []) where
  starts _ := rfl
  reads fuel rest hfuel _ := by
    obtain ⟨fuel, rfl⟩ : ∃ m, fuel = m + 2 := ⟨fuel - 2, by simp at hfuel; omega⟩
    rfl

/-- Braces are a mapping without entries. -/
theorem isNode_braces : IsNode behindDash [.flowMappingStart, .flowMappingEnd] (mapping []) where
  starts _ := rfl
  reads fuel rest hfuel _ := by
    obtain ⟨fuel, rfl⟩ : ∃ m, fuel = m + 2 := ⟨fuel - 2, by simp at hfuel; omega⟩
    rfl

end Scalars

section Items

variable {tokens more : List Token} {node : Node} {nodes : List Node}

/-- What starts a node within a list at the column of its mapping starts one in any list. -/
theorem endsBlockItem_eq_false (h : endsBlockNode true tokens = false) :
    endsBlockItem tokens = false := by
  unfold endsBlockItem
  split
  · contradiction
  · contradiction
  · rfl

/-- A list may have no items. -/
theorem IsItems.nil : IsItems [] [] where
  deeper fuel rest hfuel := by
    obtain ⟨fuel, rfl⟩ : ∃ m, fuel = m + 1 := ⟨fuel - 1, by omega⟩
    rfl
  level fuel rest hfuel hrest := by
    obtain ⟨fuel, rfl⟩ : ∃ m, fuel = m + 1 := ⟨fuel - 1, by omega⟩
    rw [List.nil_append, readLevelItems]
    rintro rest rfl
    exact hrest rfl

/-- The first item of a list stands behind a dash. -/
theorem IsItems.cons (hnode : IsNode true tokens node) (hmore : IsItems more nodes) :
    IsItems (.blockEntry :: (tokens ++ more)) (node :: nodes) where
  deeper fuel rest hfuel := by
    rw [List.length_cons, List.length_append] at hfuel
    obtain ⟨fuel, rfl⟩ : ∃ m, fuel = m + 1 := ⟨fuel - 1, by omega⟩
    have hends := endsBlockItem_eq_false (hnode.starts (more ++ .blockEnd :: rest))
    have hread := hnode.reads fuel (more ++ .blockEnd :: rest) (by omega) (by simp)
    have hitems := hmore.deeper fuel rest (by omega)
    rw [List.cons_append, List.append_assoc, readBlockItems, hends, if_neg Bool.false_ne_true]
    change (read true false fuel _ >>= _) = _
    rw [Bool.not_true] at hread
    rw [hread]
    change (readBlockItems fuel _ >>= _) = _
    rw [hitems]
    rfl
  level fuel rest hfuel hrest := by
    rw [List.length_cons, List.length_append] at hfuel
    obtain ⟨fuel, rfl⟩ : ∃ m, fuel = m + 1 := ⟨fuel - 1, by omega⟩
    have hread := hnode.reads fuel (more ++ rest) (by omega) (by simp)
    have hitems := hmore.level fuel rest (by omega) hrest
    rw [List.cons_append, List.append_assoc, readLevelItems, hnode.starts,
      if_neg Bool.false_ne_true]
    change (read true false fuel _ >>= _) = _
    rw [Bool.not_true] at hread
    rw [hread]
    change (readLevelItems fuel _ >>= _) = _
    rw [hitems]
    rfl

/-- A list with tokens of its start and its end is a node. -/
theorem IsItems.isNode (h : IsItems tokens nodes) (behindDash : Bool) :
    IsNode behindDash (.blockSequenceStart :: (tokens ++ [.blockEnd])) (sequence nodes) where
  starts _ := rfl
  reads fuel rest hfuel _ := by
    rw [List.length_cons, List.length_append, List.length_singleton] at hfuel
    obtain ⟨fuel, rfl⟩ : ∃ m, fuel = m + 1 := ⟨fuel - 1, by omega⟩
    have hitems := h.deeper fuel rest (by omega)
    rw [List.cons_append, List.append_assoc, List.singleton_append, read, if_pos rfl, hitems]
    rfl

/-- A list at the column of its mapping is a node behind the colon if it has an item. -/
theorem IsItems.isNode_level (h : IsItems (.blockEntry :: tokens) nodes) :
    IsNode false (.blockEntry :: tokens) (sequence nodes) where
  starts _ := rfl
  reads fuel rest hfuel hrest := by
    obtain ⟨fuel, rfl⟩ : ∃ m, fuel = m + 1 := ⟨fuel - 1, by omega⟩
    have hitems := h.level fuel rest (by omega) (hrest rfl)
    rw [List.cons_append] at hitems ⊢
    rw [read, Bool.not_false, if_pos rfl, hitems]
    rfl

end Items

section Entries

variable {tokens more : List Token} {t : Token} {key value : Node} {entries : List (Node × Node)}

/-- A mapping may have no entries. -/
theorem IsEntries.nil : IsEntries [] [] where
  starts _ := by simp
  reads fuel rest hfuel := by
    obtain ⟨fuel, rfl⟩ : ∃ m, fuel = m + 1 := ⟨fuel - 1, by omega⟩
    rfl

/-- The first entry of a mapping is a key and a value. -/
theorem IsEntries.cons (hkey : IsNode false [t] key) (hvalue : IsNode false tokens value)
    (hmore : IsEntries more entries) :
    IsEntries (.key :: t :: .value :: (tokens ++ more)) ((key, value) :: entries) where
  starts _ := by simp
  reads fuel rest hfuel := by
    simp only [List.length_cons, List.length_append] at hfuel
    obtain ⟨fuel, rfl⟩ : ∃ m, fuel = m + 1 := ⟨fuel - 1, by omega⟩
    have hreadKey := hkey.reads fuel (.value :: (tokens ++ (more ++ .blockEnd :: rest)))
      (by simp; omega) (by simp)
    have hreadValue := hvalue.reads fuel (more ++ .blockEnd :: rest) (by omega)
      fun _ => hmore.starts rest
    have hentries := hmore.reads fuel rest (by omega)
    have hstart := hkey.starts (.value :: (tokens ++ (more ++ .blockEnd :: rest)))
    rw [List.singleton_append] at hreadKey hstart
    rw [Bool.not_false] at hreadKey hreadValue
    simp only [List.cons_append, List.append_assoc]
    rw [readBlockEntries, hstart, if_neg Bool.false_ne_true]
    change (read true true fuel _ >>= _) = _
    rw [hreadKey]
    change (if endsBlockNode false (tokens ++ (more ++ .blockEnd :: rest)) = true then _
      else (read true true fuel (tokens ++ (more ++ .blockEnd :: rest)) >>= _)) = _
    rw [hvalue.starts, if_neg Bool.false_ne_true, hreadValue]
    change (readBlockEntries fuel _ >>= _) = _
    rw [hentries]
    rfl

/-- A mapping with tokens of its start and its end is a node. -/
theorem IsEntries.isNode (h : IsEntries tokens entries) (behindDash : Bool) :
    IsNode behindDash (.blockMappingStart :: (tokens ++ [.blockEnd])) (mapping entries) where
  starts _ := rfl
  reads fuel rest hfuel _ := by
    rw [List.length_cons, List.length_append, List.length_singleton] at hfuel
    obtain ⟨fuel, rfl⟩ : ∃ m, fuel = m + 1 := ⟨fuel - 1, by omega⟩
    have hentries := h.reads fuel rest (by omega)
    rw [List.cons_append, List.append_assoc, List.singleton_append, read, if_pos rfl, hentries]
    rfl

end Entries

/-- The tree of a document that is a mapping. -/
theorem ofTokens_mapping {tokens : List Token} {entries : List (Node × Node)}
    (h : IsEntries tokens entries) :
    ofTokens (.blockMappingStart :: (tokens ++ [.blockEnd])) = .ok (mapping entries) := by
  have hread := (h.isNode true).reads
    (2 * (Token.blockMappingStart :: (tokens ++ [.blockEnd])).length + 2) [] (Nat.le_refl _)
    (by simp)
  rw [List.append_nil] at hread
  change (read true false _ (.blockMappingStart :: (tokens ++ [.blockEnd])) >>= _) = _
  rw [Bool.not_true] at hread
  rw [hread]
  rfl

end EnumLabels.Yaml.Node
