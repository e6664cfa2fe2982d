import EnumLabels.Proofs.Yaml.ScalarToken

/-!
# Tokens of blocks

The lines of a block all stand at its column. A line is an item behind a dash, or a key with a
value behind its colon. What stands inside an item or a value is a text on its own, a block that is
deeper, or as a value a list at the column of its mapping.

A deeper block has tokens of its own for its start and its end. The end shows only at the next line
that is not as deep.
-/

namespace EnumLabels.Yaml.Lexer

/-- Lines of a block, whose collection starts with a given token if they are its first ones. -/
structure IsBlockLine (start : Token) (indent : Nat) (text : List Char) (tokens : List Token) :
    Prop where
  begins : ∀ more, IsLine (text ++ '\n' :: more)
  passes : ∀ (s : Lexer) (cursor : Cursor) (earlier opened : List Token) (outer inner : List Nat)
    (column : Nat) (next : List Char), s.settle = .ok (block cursor earlier outer true) →
    cursor.column = indent →
    (block cursor earlier outer true).openBlock start =
      block cursor opened (indent :: inner) true →
    cursor.rest = text ++ (newline column ++ next) → column ≤ indent → IsLine next →
    s.Passes (block (cursor.pass (text ++ newline column) next) (tokens.reverse ++ opened)
      (indent :: inner) true)

/-- What stands behind a dash, where a key may start, or behind the colon of a key. -/
structure IsInside (allowsKey : Bool) (indent : Nat) (text : List Char) (tokens : List Token) :
    Prop where
  begins : ∃ c rest, text = c :: rest ∧ (c = ' ' ∨ c = '\n')
  passes : ∀ (cursor : Cursor) (earlier : List Token) (outer : List Nat) (column : Nat)
    (next : List Char), indent < cursor.column → (allowsKey = true → cursor.column = indent + 1) →
    cursor.rest = text ++ (newline column ++ next) → column ≤ indent → IsLine next →
    (block cursor earlier (indent :: outer) allowsKey).Passes
      (block (cursor.pass (text ++ newline column) next) (tokens.reverse ++ earlier)
        (indent :: outer) true)

section Inside

variable {indent : Nat} {text : List Char} {tokens : List Token} {start : Token}

/-- Within a block blanks are passed. -/
theorem settle_block {cursor : Cursor} (earlier : List Token) (indent : Nat) (outer : List Nat)
    (allowsKey : Bool) {blanks rest : List Char} (hrest : cursor.rest = blanks ++ rest)
    (hblanks : ∀ c ∈ blanks, c = ' ' ∨ c = '\n')
    (hhead : ∀ c ∈ rest.head?, c ≠ '#' ∧ isGap c = false ∧ isBreak c = false)
    (hcolumn : indent ≤ (cursor.pass blanks rest).column) :
    (block cursor earlier (indent :: outer) allowsKey).settle =
      .ok (block (cursor.pass blanks rest) earlier (indent :: outer)
        (allowsKey || blanks.any isBreak)) := by
  rw [settle_eq blanks rfl hrest hblanks hhead (by simp)]
  exact congrArg Except.ok (unwind_of_le hcolumn)

/-- One blank takes one column. -/
theorem column_pass_blank (cursor : Cursor) (rest : List Char) :
    (cursor.pass [' '] rest).column = cursor.column + 1 :=
  Cursor.column_pass rfl (by simp) rest

/-- A text on its own stands inside an item or a value behind a blank. -/
theorem IsAtom.inside (h : IsAtom indent text tokens)
    (hhead : ∀ more, ∀ c ∈ (text ++ more).head?, c ≠ '#' ∧ isGap c = false ∧ isBreak c = false)
    (allowsKey : Bool) : IsInside allowsKey indent (' ' :: text) tokens := by
  refine ⟨⟨' ', text, rfl, Or.inl rfl⟩, ?_⟩
  intro cursor earlier outer column next hdeeper _ hcursor hcolumn hnext
  have hblank := column_pass_blank cursor (text ++ (newline column ++ next))
  have hblanks : cursor.rest = [' '] ++ (text ++ (newline column ++ next)) := hcursor
  have hsettle := settle_block earlier indent outer allowsKey hblanks (by simp) (hhead _)
    (by omega)
  have hpasses := h _ _ _ _ _ _ _ hsettle (by omega) rfl hcolumn hnext
  rw [Cursor.pass_pass] at hpasses
  exact hpasses

/-- A deeper block stands inside with the tokens of its start and its end. -/
theorem IsBlockLine.passes_deeper (h : IsBlockLine start (indent + 2) text tokens) {s : Lexer}
    {cursor : Cursor} {earlier : List Token} {outer : List Nat} {column : Nat} {next : List Char}
    (hsettle : s.settle = .ok (block cursor earlier (indent :: outer) true))
    (hplace : cursor.column = indent + 2) (hcursor : cursor.rest = text ++ (newline column ++ next))
    (hcolumn : column ≤ indent) (hnext : IsLine next) :
    s.Passes (block (cursor.pass (text ++ newline column) next)
      ((start :: (tokens ++ [.blockEnd])).reverse ++ earlier) (indent :: outer) true) := by
  have hopen := openBlock_of_lt outer earlier true (by omega : indent < cursor.column) start
  rw [hplace] at hopen
  obtain ⟨t, hsteps, hend⟩ :=
    h.passes s cursor earlier _ _ _ column next hsettle hplace hopen hcursor (by omega) hnext
  refine ⟨t, hsteps, ?_⟩
  rw [hend, unwind_of_lt (by rw [Cursor.column_pass_newline]; omega)]
  simp

/-- A deeper block may start behind a dash. -/
theorem IsBlockLine.behindDash (h : IsBlockLine start (indent + 2) text tokens) :
    IsInside true indent (' ' :: text) (start :: (tokens ++ [.blockEnd])) := by
  refine ⟨⟨' ', text, rfl, Or.inl rfl⟩, ?_⟩
  intro cursor earlier outer column next hdeeper hplace hcursor hcolumn hnext
  have hblank := column_pass_blank cursor (text ++ (newline column ++ next))
  have hblanks : cursor.rest = [' '] ++ (text ++ (newline column ++ next)) := hcursor
  have hsettle := settle_block earlier indent outer true hblanks (by simp)
    (h.begins _).head (by omega)
  have hpasses := h.passes_deeper hsettle (by rw [hblank, hplace rfl]) rfl hcolumn hnext
  rw [Cursor.pass_pass] at hpasses
  exact hpasses

/-- What settles on a new line behind a colon. -/
theorem settle_behindColon {cursor : Cursor} (earlier : List Token) (outer : List Nat)
    {deeper : Nat} (hdeeper : indent ≤ deeper) {more : List Char}
    (hcursor : cursor.rest = newline deeper ++ text ++ '\n' :: more)
    (hline : IsLine (text ++ '\n' :: more)) :
    (block cursor earlier (indent :: outer) false).settle =
      .ok (block (cursor.pass (newline deeper) (text ++ '\n' :: more)) earlier (indent :: outer)
        true) := by
  have hcolumn := Cursor.column_pass_newline (c := cursor) [] deeper (text ++ '\n' :: more)
  rw [List.nil_append] at hcolumn
  rw [List.append_assoc] at hcursor
  exact settle_block earlier indent outer false hcursor (by simp [newline]) hline.head (by omega)

/-- A deeper block may start on the line below a colon. -/
theorem IsBlockLine.belowColon (h : IsBlockLine start (indent + 2) text tokens) :
    IsInside false indent (newline (indent + 2) ++ text) (start :: (tokens ++ [.blockEnd])) := by
  refine ⟨⟨'\n', _, rfl, Or.inr rfl⟩, ?_⟩
  intro cursor earlier outer column next hdeeper _ hcursor hcolumn hnext
  have hsettle := settle_behindColon earlier outer (Nat.le_add_right indent 2)
    hcursor (h.begins _)
  have hplace := Cursor.column_pass_newline (c := cursor) [] (indent + 2)
    (text ++ (newline column ++ next))
  have hpasses := h.passes_deeper hsettle hplace rfl hcolumn hnext
  rw [Cursor.pass_pass, ← List.append_assoc] at hpasses
  exact hpasses

/-- A list may start below a colon at the column of its mapping, and has no tokens of its own. -/
theorem IsBlockLine.levelWithColon (h : IsBlockLine start indent text tokens) :
    IsInside false indent (newline indent ++ text) tokens := by
  refine ⟨⟨'\n', _, rfl, Or.inr rfl⟩, ?_⟩
  intro cursor earlier outer column next hdeeper _ hcursor hcolumn hnext
  have hsettle := settle_behindColon earlier outer (Nat.le_refl indent) hcursor
    (h.begins _)
  have hplace := Cursor.column_pass_newline (c := cursor) [] indent
    (text ++ (newline column ++ next))
  have hpasses := h.passes _ _ earlier earlier _ outer column next hsettle hplace
    (openBlock_of_eq hplace start) rfl hcolumn hnext
  rw [Cursor.pass_pass, ← List.append_assoc] at hpasses
  exact hpasses

end Inside

section Lines

variable {indent : Nat} {text : List Char} {tokens : List Token} {start : Token}

/-- A dash before a blank is no document mark. -/
theorem isDocumentMark_dash {rest : List Char} (h : atSpace rest = true) :
    isDocumentMark ('-' :: rest) = false := by
  cases rest with
  | nil => rfl
  | cons c rest =>
    have hc : c ≠ '-' := by
      rintro rfl
      contradiction
    simp [isDocumentMark, hc]

/-- The column of a block lies behind those of the blocks around it. -/
theorem le_column_of_openBlock {cursor : Cursor} {earlier opened : List Token}
    {outer inner : List Nat}
    (h : (block cursor earlier outer true).openBlock start =
      block cursor opened (cursor.column :: inner) true) :
    ∀ indent ∈ outer.head?, indent ≤ cursor.column := by
  intro indent hindent
  cases outer with
  | nil => contradiction
  | cons first outer =>
    obtain rfl := Option.some.inj hindent
    by_contra hgt
    have hlevel : ¬ isDeeper (block cursor earlier (first :: outer) true) cursor.column = true := by
      simpa [isDeeper, block] using Nat.le_of_lt (Nat.lt_of_not_le hgt)
    rw [openBlock_block, if_neg hlevel] at h
    obtain ⟨heq, -⟩ := List.cons.inj (block_inj.mp h).2
    omega

/-- The token of a dash is passed where a list goes on or starts. -/
theorem steps_dash {s : Lexer} {cursor : Cursor} {earlier opened : List Token}
    {outer inner : List Nat} {rest : List Char}
    (hsettle : s.settle = .ok (block cursor earlier outer true))
    (hopen : (block cursor earlier outer true).openBlock .blockSequenceStart =
      block cursor opened inner true)
    (hcursor : cursor.rest = '-' :: rest) (hspace : atSpace rest = true) :
    Steps s (block (cursor.pass ['-'] rest) (.blockEntry :: opened) inner true) := by
  have hdispatch : (block cursor earlier outer true).readToken '-' rest =
      (block cursor earlier outer true).readDash := by
    simp [readToken, isDocumentMark_dash hspace, hspace]
  refine steps_of_readToken hsettle hcursor ?_ (Nat.le_refl _)
  rw [hdispatch, readDash]
  change (Lexer.removeKey (Lexer.allow ((block cursor earlier outer true).openBlock _) true) >>=
    _) = _
  rw [hopen]
  change Except.ok (Lexer.emit (Lexer.advance (block cursor opened inner true) 1) _) = _
  have hadvance : cursor.advance 1 = cursor.pass ['-'] rest :=
    Cursor.advance_eq ['-'] hcursor
  simp only [advance, emit, block, hadvance, List.length_cons]

/-- What stands inside a line begins with a space or a break. -/
theorem IsInside.atSpace_append {allowsKey : Bool} (h : IsInside allowsKey indent text tokens)
    (more : List Char) : atSpace (text ++ more) = true := by
  obtain ⟨c, rest, htext, hc⟩ := h.begins
  rcases hc with rfl | rfl <;> rw [htext] <;> rfl

/-- An item of a list is a line. -/
theorem IsInside.item (h : IsInside true indent text tokens) :
    IsBlockLine .blockSequenceStart indent ('-' :: text) (.blockEntry :: tokens) := by
  refine ⟨fun more => ⟨isDocumentMark_dash (h.atSpace_append _), ?_⟩, ?_⟩
  · intro d hd
    obtain rfl := Option.some.inj hd
    decide
  · intro s cursor earlier opened outer inner column next hsettle hplace hopen hcursor hcolumn hnext
    have hcolumn' : (cursor.pass ['-'] (text ++ (newline column ++ next))).column = indent + 1 := by
      rw [Cursor.column_pass rfl (by simp), hplace]
      rfl
    have hpasses := h.passes _ (.blockEntry :: opened) inner column next (by omega)
      (fun _ => hcolumn') rfl hcolumn hnext
    rw [Cursor.pass_pass] at hpasses
    refine Passes.head (steps_dash hsettle hopen hcursor (h.atSpace_append _)) ?_
    simpa using hpasses

/-- The token of a key, and of its mapping if it is the first one, are put before its text. -/
theorem insertKey_eq {cursor place : Cursor} {t : Token} {required : Bool}
    {earlier opened : List Token} {outer inner : List Nat}
    (hopen : (block cursor earlier outer true).openBlock .blockMappingStart =
      block cursor opened inner true) :
    insertKey ⟨place, t :: earlier, earlier.length + 1, outer, [none], false⟩
        ⟨earlier.length, required, cursor.index, cursor.line, cursor.column⟩ =
      block place (t :: .key :: opened) inner false := by
  have hlater : earlier.length + 1 - earlier.length = 1 := by omega
  let keyed : Lexer := ⟨place, t :: earlier, earlier.length + 1, outer, [none], false⟩
  rw [openBlock_block] at hopen
  split_ifs at hopen with hdeeper
  · obtain ⟨rfl, rfl⟩ := block_inj.mp hopen
    have hinsert : (!keyed.inFlow && keyed.isDeeper cursor.column) = true := hdeeper
    rw [insertKey, if_pos hinsert]
    simp only [hlater]
    rfl
  · obtain ⟨rfl, rfl⟩ := block_inj.mp hopen
    have hinsert : ¬ (!keyed.inFlow && keyed.isDeeper cursor.column) = true := hdeeper
    rw [insertKey, if_neg hinsert]
    simp only [hlater]
    rfl

/-- The colon behind a key is passed where a mapping goes on or starts. -/
theorem steps_colon {cursor : Cursor} {key rest : List Char} {t : Token} {required : Bool}
    {earlier opened : List Token} {outer inner : List Nat}
    (hsettle : (behindKey cursor key (':' :: rest) t earlier outer required).settle =
      .ok (behindKey cursor key (':' :: rest) t earlier outer required))
    (hopen : (block cursor earlier outer true).openBlock .blockMappingStart =
      block cursor opened inner true) (hspace : atSpace rest = true) :
    Steps (behindKey cursor key (':' :: rest) t earlier outer required)
      (block (cursor.pass (key ++ [':']) rest) (.value :: t :: .key :: opened) inner false) := by
  refine steps_of_readToken hsettle rfl ?_ (Nat.le_refl _)
  have hdispatch (s : Lexer) : s.readToken ':' rest = s.readValue := by
    simp [readToken, isDocumentMark_cons_eq_false, hspace]
  have hadvance : (cursor.pass key (':' :: rest)).advance 1 = cursor.pass (key ++ [':']) rest := by
    rw [← Cursor.pass_pass cursor key [':'] (':' :: rest)]
    exact Cursor.advance_eq [':'] rfl
  rw [hdispatch]
  change Except.ok (Lexer.emit (Lexer.advance (Lexer.allow (insertKey
    ⟨cursor.pass key (':' :: rest), t :: earlier, earlier.length + 1, outer, [none], false⟩
    ⟨earlier.length, required, cursor.index, cursor.line, cursor.column⟩) false) 1) .value) = _
  rw [insertKey_eq hopen]
  simp only [allow, advance, emit, block, hadvance, List.length_cons]

/-- An entry of a mapping is a line. -/
theorem IsInside.entry (h : IsInside false indent text tokens) {key : List Char} {t : Token}
    (hkey : IsKey key t) :
    IsBlockLine .blockMappingStart indent (key ++ ':' :: text) (.key :: t :: .value :: tokens) := by
  refine ⟨fun more => ?_, ?_⟩
  · rw [List.append_assoc]
    exact hkey.begins _
  · intro s cursor earlier opened outer inner column next hsettle hplace hopen hcursor hcolumn hnext
    have hrest : cursor.rest = key ++ ':' :: (text ++ (newline column ++ next)) := by
      rw [hcursor, List.append_assoc]
      rfl
    have hindents := le_column_of_openBlock (hplace ▸ hopen)
    obtain ⟨required, hsteps, hbehind⟩ :=
      hkey.steps s cursor earlier outer _ hsettle hindents hrest (h.atSpace_append _)
    have hdeeper :
        indent < (cursor.pass (key ++ [':']) (text ++ (newline column ++ next))).column := by
      rw [Cursor.column_pass (by simp [hkey.ordinary, isOrdinary]) (by simp [hkey.noBreak]), hplace,
        List.length_append]
      simp
    have hpasses := h.passes _ (.value :: t :: .key :: opened) inner column next hdeeper (by simp)
      rfl hcolumn hnext
    rw [Cursor.pass_pass] at hpasses
    refine Passes.head hsteps (Passes.head (steps_colon hbehind hopen (h.atSpace_append _)) ?_)
    simpa using hpasses

/-- Lines one below the other are lines of one block. -/
theorem IsBlockLine.append {below : List Char} {more : List Token}
    (h : IsBlockLine start indent text tokens) (hbelow : IsBlockLine start indent below more) :
    IsBlockLine start indent (text ++ newline indent ++ below) (tokens ++ more) := by
  refine ⟨fun rest => ?_, ?_⟩
  · rw [List.append_assoc, List.append_assoc]
    exact h.begins _
  · intro s cursor earlier opened outer inner column next hsettle hplace hopen hcursor hcolumn hnext
    have hrest : cursor.rest = text ++ (newline indent ++ (below ++ (newline column ++ next))) := by
      rw [hcursor, List.append_assoc, List.append_assoc]
    refine (h.passes s cursor earlier opened outer inner indent _ hsettle hplace hopen hrest
      (Nat.le_refl _) (hbelow.begins _)).trans fun t ht => ?_
    -- the next line settles at the column of the block, so its token opens nothing
    have hlevel := Cursor.column_pass_newline (c := cursor) text indent
      (below ++ (newline column ++ next))
    rw [unwind_of_le (by omega)] at ht
    have hpasses := hbelow.passes t _ _ _ _ inner column next ht hlevel
      (openBlock_of_eq hlevel start) rfl hcolumn hnext
    rw [Cursor.pass_pass] at hpasses
    simpa using hpasses

/-- Nothing starts at the end of a text. -/
theorem isLine_nil : IsLine [] := ⟨rfl, by simp⟩

/-- Lines at the first column have the tokens of their collection. -/
theorem IsBlockLine.tokens_eq (h : IsBlockLine start 0 text tokens) :
    Yaml.tokens (text ++ ['\n']) = start :: (tokens ++ [.blockEnd]) := by
  have hbegin : (Lexer.start (text ++ ['\n'])).settle =
      .ok (block (Cursor.start (text ++ ['\n'])) [] [] true) :=
    settle_eq [] rfl rfl (by simp) (h.begins []).head (by simp)
  obtain ⟨t, hsteps, hsettle⟩ := h.passes _ _ [] [start] [] [] 0 [] hbegin rfl
    (openBlock_block start) rfl (Nat.le_refl 0) isLine_nil
  rw [unwind_of_le (Nat.zero_le _)] at hsettle
  have hend : t.step = .ok (.inr (start :: (tokens ++ [.blockEnd]))) := by
    rw [step, hsettle]
    change Except.ok (Sum.inr (List.reverse (.blockEnd :: (tokens.reverse ++ [start])))) = _
    simp
  exact run_eq_of_steps hsteps hend (Nat.lt_succ_self _)

end Lines

end EnumLabels.Yaml.Lexer
