import EnumLabels.Proofs.Yaml.DoubleQuoted
import EnumLabels.Proofs.Yaml.Lexer
import EnumLabels.Proofs.Yaml.SafePlain
import EnumLabels.Proofs.Yaml.SingleQuoted

/-!
# Tokens of scalars

A scalar is one token in each of its styles, and empty brackets are two. Behind a dash or a colon
such a text ends with its line. At the start of a line a scalar on one line may be a key, and is
remembered as one up to the colon behind it.
-/

namespace EnumLabels.Yaml.Lexer

/-- A text without further structure that stands deeper than the column of its block. -/
def IsAtom (indent : Nat) (text : List Char) (tokens : List Token) : Prop :=
  ∀ (s : Lexer) (cursor : Cursor) (earlier : List Token) (outer : List Nat) (allowsKey : Bool)
    (column : Nat) (next : List Char),
    s.settle = .ok (block cursor earlier (indent :: outer) allowsKey) → indent < cursor.column →
    cursor.rest = text ++ (newline column ++ next) → column ≤ indent → IsLine next →
    s.Passes (block (cursor.pass (text ++ newline column) next) (tokens.reverse ++ earlier)
      (indent :: outer) true)

/-- The lexer before the colon behind a key. -/
def behindKey (cursor : Cursor) (text more : List Char) (t : Token) (earlier : List Token)
    (indents : List Nat) (required : Bool) : Lexer where
  cursor := cursor.pass text more
  tokens := t :: earlier
  count := earlier.length + 1
  indents
  keys := [some ⟨earlier.length, required, cursor.index, cursor.line, cursor.column⟩]
  allowsKey := false

/-- A text on one line that is remembered as a key. -/
structure IsKey (text : List Char) (t : Token) : Prop where
  ordinary : text.all isOrdinary = true
  noBreak : '\n' ∉ text
  begins : ∀ more, IsLine (text ++ ':' :: more)
  steps : ∀ (s : Lexer) (cursor : Cursor) (earlier : List Token) (indents : List Nat)
    (more : List Char), s.settle = .ok (block cursor earlier indents true) →
    (∀ indent ∈ indents.head?, indent ≤ cursor.column) → cursor.rest = text ++ ':' :: more →
    atSpace more = true →
    ∃ required, Steps s (behindKey cursor text (':' :: more) t earlier indents required) ∧
      (behindKey cursor text (':' :: more) t earlier indents required).settle =
        .ok (behindKey cursor text (':' :: more) t earlier indents required)

section Keys

variable {cursor : Cursor} {tokens : List Token} {indents : List Nat} {indent : Nat}
  {allowsKey : Bool}

/-- A key may start where keys are allowed. -/
theorem saveKey_block (tokens : List Token) (indents : List Nat) :
    (block cursor tokens indents true).saveKey =
      .ok ⟨cursor, tokens, tokens.length, indents, [some ⟨tokens.length,
        indents.head? == some cursor.column, cursor.index, cursor.line, cursor.column⟩], true⟩ :=
  rfl

/-- Deeper than the column of its block nothing must be a key. -/
theorem exists_saveKey_block (tokens : List Token) (indents : List Nat) (allowsKey : Bool)
    (h : indent < cursor.column) :
    ∃ key, (block cursor tokens (indent :: indents) allowsKey).saveKey =
        .ok ⟨cursor, tokens, tokens.length, indent :: indents, [key], allowsKey⟩ ∧
      ∀ k ∈ key, k.required = false ∧ k.line = cursor.line := by
  cases allowsKey with
  | false => exact ⟨none, rfl, by simp⟩
  | true =>
    refine ⟨_, saveKey_block _ _, fun k hk => ?_⟩
    obtain rfl := Option.some.inj hk
    refine ⟨?_, rfl⟩
    simp only [List.head?_cons, beq_eq_false_iff_ne, ne_eq, Option.some.injEq]
    omega

end Keys

section LineEnds

variable {cursor : Cursor} {tokens : List Token} {indents : List Nat} {key : Option PossibleKey}
  {text next : List Char} {column : Nat}

/-- Behind the end of a line nothing before it can be a key. -/
theorem settle_newline (hkey : ∀ k ∈ key, k.required = false ∧ k.line = cursor.line)
    (hnext : IsLine next) (allowsKey : Bool) :
    settle ⟨cursor.pass text (newline column ++ next), tokens, tokens.length, indents, [key],
        allowsKey⟩ =
      .ok (block (cursor.pass (text ++ newline column) next) tokens indents true).unwind := by
  have hblanks : ∀ c ∈ newline column, c = ' ' ∨ c = '\n' := by
    simp [newline]
  have hbreak : (newline column).any isBreak = true := rfl
  rw [settle_eq (newline column) rfl rfl hblanks hnext.head]
  · rw [Cursor.pass_pass, hbreak, Bool.or_true]
    rfl
  · intro k hk
    obtain ⟨hrequired, hline⟩ := hkey k hk
    rw [Cursor.pass_pass, hline]
    exact ⟨hrequired, Cursor.line_lt_pass_newline text column next⟩

/-- The end of the line may have been read with the text before it. -/
theorem settle_behindNewline (hkey : ∀ k ∈ key, k.required = false ∧ k.line = cursor.line)
    (hnext : IsLine next) :
    settle ⟨cursor.pass (text ++ newline column) next, tokens, tokens.length, indents, [key],
        true⟩ =
      .ok (block (cursor.pass (text ++ newline column) next) tokens indents true).unwind := by
  rw [settle_eq [] rfl rfl (by simp) hnext.head]
  · rw [Cursor.pass_pass, List.append_nil]
    rfl
  · intro k hk
    obtain ⟨hrequired, hline⟩ := hkey k hk
    rw [Cursor.pass_pass, List.append_nil, hline]
    exact ⟨hrequired, Cursor.line_lt_pass_newline text column next⟩

/-- A key on the line is remembered before the colon behind it. -/
theorem settle_behindKey {more : List Char} {earlier : List Token} {t : Token} {required : Bool}
    (hordinary : text.all isOrdinary = true) (hline : '\n' ∉ text) (hlength : text.length ≤ 1024)
    (hindents : ∀ indent ∈ indents.head?, indent ≤ cursor.column) :
    (behindKey cursor text (':' :: more) t earlier indents required).settle =
      .ok (behindKey cursor text (':' :: more) t earlier indents required) := by
  rw [settle_eq_of_key rfl (by simp [behindKey, isGap, isBreak]), unwind_eq_self]
  · intro indent hindent
    change indent ≤ (cursor.pass text (':' :: more)).column
    rw [Cursor.column_pass hordinary hline]
    exact Nat.le_trans (hindents indent hindent) (Nat.le_add_right _ _)
  · exact (Cursor.line_pass hordinary hline _).symm
  · change cursor.index + text.length ≤ cursor.index + 1024
    omega

end LineEnds

section Quotes

variable {quote : Char} {written content : List Char}
  {quoted : List Char → Except ReadFault (CodeString × List Char)}

/-- Text between apostrophes is read behind the first of them. -/
theorem readToken_apostrophe (s : Lexer) (rest : List Char) :
    s.readToken '\'' rest = s.readQuoted (singleQuoted rest) := by
  simp [readToken, isDocumentMark_cons_eq_false]

/-- Text between double quotes is read behind the first of them. -/
theorem readToken_quote (s : Lexer) (rest : List Char) :
    s.readToken '"' rest = s.readQuoted (doubleQuoted rest) := by
  simp [readToken, isDocumentMark_cons_eq_false]

/-- Quoted text that is read up to its end is one token. -/
theorem readQuoted_eq {s saved : Lexer} {content : CodeString} {rest : List Char}
    (hsave : s.saveKey = .ok saved) (hcursor : saved.cursor.rest = written ++ rest)
    {found : Except ReadFault (CodeString × List Char)} (hfound : found = .ok (content, rest)) :
    s.readQuoted found = .ok { saved with
      cursor := saved.cursor.pass written rest
      tokens := .quoted content :: saved.tokens
      count := saved.count + 1
      allowsKey := false } := by
  rw [readQuoted, hsave, hfound]
  change Except.ok ((saved.allow false |>.moveTo rest).emit _) = _
  simp only [moveTo, allow, emit, Cursor.moveTo_eq hcursor]

/-- Quoted text stands on its own behind a dash or a colon. -/
theorem isAtom_quoted {content : CodeString} {indent : Nat}
    (hdispatch : ∀ (s : Lexer) rest, s.readToken quote rest = s.readQuoted (quoted rest))
    (hread : ∀ rest, rest.head? ≠ some '\'' → quoted (written ++ rest) = .ok (content, rest)) :
    IsAtom indent (quote :: written) [.quoted content] := by
  intro s cursor earlier outer allowsKey column next hsettle hdeeper hcursor hcolumn hnext
  obtain ⟨key, hsave, hkey⟩ := exists_saveKey_block earlier outer allowsKey hdeeper
  have hquoted := readQuoted_eq hsave hcursor (hread (newline column ++ next) (by simp [newline]))
  rw [← hdispatch] at hquoted
  refine Passes.head (steps_of_readToken hsettle hcursor hquoted ?_) ⟨_, .refl, ?_⟩
  · simp
  · exact settle_newline hkey hnext false

/-- Quoted text on one line may be a key. -/
theorem isKey_quoted {content : CodeString}
    (hdispatch : ∀ (s : Lexer) rest, s.readToken quote rest = s.readQuoted (quoted rest))
    (hread : ∀ rest, rest.head? ≠ some '\'' → quoted (written ++ rest) = .ok (content, rest))
    (hquote : quote ≠ '-' ∧ quote ≠ '.' ∧ quote ≠ '#' ∧ quote ≠ ' ')
    (hordinary : (quote :: written).all isOrdinary = true) (hline : '\n' ∉ quote :: written)
    (hlength : (quote :: written).length ≤ 1024) :
    IsKey (quote :: written) (.quoted content) := by
  obtain ⟨hdash, hpoint, hhash, hblank⟩ := hquote
  have hfeed : quote ≠ '\n' := fun heq => hline (heq ▸ List.mem_cons_self)
  have hfirst := List.all_eq_true.mp hordinary quote List.mem_cons_self
  refine ⟨hordinary, hline, fun more => ⟨isDocumentMark_cons_eq_false ⟨hdash, hpoint⟩ _, ?_⟩, ?_⟩
  · intro c hc
    obtain rfl := Option.some.inj hc
    exact ⟨hhash, isGap_isBreak_eq_false hfirst hblank hfeed⟩
  intro s cursor earlier indents more hsettle hindents hcursor hmore
  have hquoted := readQuoted_eq (saveKey_block earlier indents) hcursor
    (hread (':' :: more) (by simp))
  rw [← hdispatch] at hquoted
  exact ⟨_, steps_of_readToken hsettle hcursor hquoted (by simp [behindKey]),
    settle_behindKey hordinary hline hlength hindents⟩

end Quotes

section Plain

variable {text : List Char}

/-- Text that starts like plain text is read as such. -/
theorem readToken_plain {s : Lexer} {c : Char} {rest : List Char} (hflow : s.inFlow = false)
    (hmark : isDocumentMark (c :: rest) = false) (hstart : startsPlain false c rest = true) :
    s.readToken c rest = s.readPlainText := by
  have hspace (hc : c = '-' ∨ c = '?' ∨ c = ':') : atSpace rest = false := by
    rcases hc with rfl | rfl | rfl <;> simpa [startsPlain] using hstart
  have hindicator : ∀ d ∈ indicators, c ≠ d := by
    rintro d hd rfl
    obtain ⟨hdash, hquestion, hcolon, -⟩ := of_mem_indicators hd
    simp [startsPlain, hdash, hquestion, hcolon, hd] at hstart
  have hpunctuation (d : Char) (hd : d = '-' ∨ d = '?' ∨ d = ':') :
      ¬ (c = d ∧ atSpace rest = true) := by
    rintro ⟨rfl, hrest⟩
    rw [hspace hd] at hrest
    contradiction
  rw [readToken]
  simp only [hmark, hpunctuation '-' (by simp), hpunctuation '?' (by simp),
    hpunctuation ':' (by simp), hindicator _ (by decide : '%' ∈ indicators),
    hindicator _ (by decide : '[' ∈ indicators), hindicator _ (by decide : '{' ∈ indicators),
    hindicator _ (by decide : ']' ∈ indicators), hindicator _ (by decide : '}' ∈ indicators),
    hindicator _ (by decide : ',' ∈ indicators), hindicator _ (by decide : '*' ∈ indicators),
    hindicator _ (by decide : '&' ∈ indicators), hindicator _ (by decide : '!' ∈ indicators),
    hindicator _ (by decide : '|' ∈ indicators), hindicator _ (by decide : '>' ∈ indicators),
    hindicator _ (by decide : '\'' ∈ indicators), hindicator _ (by decide : '"' ∈ indicators),
    hflow, hstart, and_false, false_and, false_or, or_self, if_false, if_true, Bool.false_eq_true]

/-- Plain text is one token. -/
theorem readPlainText_eq {s saved : Lexer} {found : PlainText} (hsave : s.saveKey = .ok saved)
    (hfound : readPlain saved.inFlow saved.contentColumn saved.cursor [] false = found) :
    s.readPlainText = .ok { saved with
      cursor := found.cursor
      tokens := .plain found.text :: saved.tokens
      count := saved.count + 1
      allowsKey := found.broken } := by
  rw [readPlainText, hsave]
  change Except.ok (Lexer.emit { saved with cursor := _, allowsKey := _ } _) = _
  rw [hfound]
  rfl

/-- Plain text stands on its own behind a dash or a colon. -/
theorem isAtom_plain (hsafe : isSafePlain text = true) (hne : text ≠ []) (indent column : Nat) :
    IsAtom indent (foldPlain true (indent + 2) column false text) [.plain text] := by
  intro s cursor earlier outer allowsKey below next hsettle hdeeper hcursor hbelow hnext
  obtain ⟨key, hsave, hkey⟩ := exists_saveKey_block earlier outer allowsKey hdeeper
  obtain ⟨c, rest, hfirst, hstart⟩ := startsPlain_foldPlain hsafe hne true false (indent + 2) column
    (newline below ++ next)
  have hmark := isDocumentMark_foldPlain (d := '\n') (by decide) hsafe true false (indent + 2)
    column (List.replicate below ' ' ++ next)
  have hwords := foldsTo_foldPlain (isWords_of_isSafePlain hsafe hne) true false (indent + 2) column
  have hread := readPlain_of_foldsTo (indent + 1) hwords (by omega) (by omega)
    (endsPlain_newline (by omega) hnext) hcursor (by omega) [] false
  have htoken := readPlainText_eq hsave hread
  rw [← readToken_plain rfl (by rw [← hfirst]; exact hmark) hstart] at htoken
  rw [hfirst] at hcursor
  have hlength : next.length ≤ rest.length := by
    have hlengths := congrArg List.length hfirst
    simp only [newline, List.length_append, List.length_cons] at hlengths
    omega
  exact Passes.head (steps_of_readToken hsettle hcursor htoken hlength)
    ⟨_, .refl, settle_behindNewline hkey hnext⟩

/-- Plain text on one line may be a key. -/
theorem isKey_plain (hsafe : isSafePlain text = true) (hne : text ≠ [])
    (hlength : text.length ≤ 1024) : IsKey text (.plain text) := by
  have hwords := isWords_of_isSafePlain hsafe hne
  have hmark (more : List Char) : isDocumentMark (text ++ ':' :: more) = false := by
    have hfolded := isDocumentMark_foldPlain (d := ':') (by decide) hsafe false false 0 0 more
    rwa [foldPlain_false] at hfolded
  have hfolds (indent : Nat) : FoldsTo indent text text := by
    have hfolded := foldsTo_foldPlain hwords false false indent 0
    rwa [foldPlain_false] at hfolded
  refine ⟨hwords.ordinary, hwords.noBreak, fun more => ⟨hmark more, ?_⟩, ?_⟩
  · obtain ⟨c, rest, hfirst, hc⟩ := (hfolds 0).head_append (':' :: more)
    simpa [hfirst] using hc
  intro s cursor earlier indents more hsettle hindents hcursor hmore
  have hleast : contentColumn (block cursor earlier indents true) ≤ cursor.column + 1 := by
    cases indents with
    | nil => exact Nat.zero_le _
    | cons indent indents => exact Nat.succ_le_succ (hindents indent rfl)
  obtain ⟨c, rest, hfirst, hstart⟩ := startsPlain_foldPlain hsafe hne false false 0 0 (':' :: more)
  rw [foldPlain_false] at hfirst
  have hread := readPlain_of_foldsTo _ (hfolds (cursor.column + 1)) (by omega) hleast
    (endsPlain_colon _ hmore) hcursor hleast [] false
  rw [List.append_nil] at hread
  have htoken := readPlainText_eq (saveKey_block earlier indents) hread
  rw [← readToken_plain rfl (by rw [← hfirst]; exact hmark more) hstart] at htoken
  rw [hfirst] at hcursor
  have hlengths := congrArg List.length hfirst
  have hpositive := List.length_pos_iff.mpr hne
  rw [List.length_append, List.length_cons, List.length_cons] at hlengths
  refine ⟨_, steps_of_readToken hsettle hcursor htoken ?_,
    settle_behindKey hwords.ordinary hwords.noBreak hlength hindents⟩
  change more.length + 1 ≤ rest.length
  omega

end Plain

section Brackets

/-- Within brackets a key outside is kept or forgotten. -/
theorem exists_settle_eq_of_flow {s : Lexer} {key : Option PossibleKey}
    (hkeys : s.keys = [none, key]) (hallows : s.allowsKey = true) (hkey : ∀ k ∈ key, k.required = false)
    (hnext : ∀ c ∈ s.cursor.rest.head?, c ≠ '#' ∧ isGap c = false ∧ isBreak c = false) :
    ∃ kept, s.settle = .ok { s with keys := [none, kept] } ∧ ∀ k ∈ kept, k ∈ key := by
  have hplace : s.toNextToken = s := by
    rw [toNextToken_eq [] rfl (by simp) hnext, hallows]
    simp [← hallows]
  have hflow (kept : Option PossibleKey) :
      ({ s with keys := [none, kept] } : Lexer).unwind = { s with keys := [none, kept] } :=
    if_pos rfl
  cases key with
  | none =>
    refine ⟨none, ?_, by simp⟩
    rw [settle, hplace, dropStale]
    simp only [hkeys]
    exact congrArg Except.ok (hflow none)
  | some k =>
    refine ⟨if s.isStale k then none else some k, ?_, ?_⟩
    · rw [settle, hplace, dropStale]
      simp only [hkeys, List.any_cons, List.any_nil, Option.map_none, Option.map_some,
        Option.getD_none, Option.getD_some, hkey k rfl, Bool.and_false, Bool.or_false,
        if_neg Bool.false_ne_true, List.map_cons, List.map_nil]
      exact congrArg Except.ok (hflow _)
    · intro k' hk'
      split at hk'
      · contradiction
      · exact hk'

/-- Empty brackets stand on their own behind a dash or a colon. -/
theorem isAtom_brackets {first last : Char} {start stop : Token} (indent : Nat)
    (hfirst : ∀ (s : Lexer) rest, s.readToken first rest = s.readFlowStart start)
    (hlast : ∀ (s : Lexer) rest, s.readToken last rest = s.readFlowEnd stop)
    (hinner : last ≠ '#' ∧ isGap last = false ∧ isBreak last = false) :
    IsAtom indent [first, last] [start, stop] := by
  intro s cursor earlier outer allowsKey column next hsettle hdeeper hcursor hcolumn hnext
  obtain ⟨key, hsave, hkey⟩ := exists_saveKey_block earlier outer allowsKey hdeeper
  let rest := newline column ++ next
  let inside (keys : List (Option PossibleKey)) : Lexer :=
    ⟨cursor.pass [first] (last :: rest), start :: earlier, earlier.length + 1, indent :: outer,
      keys, true⟩
  have hopen : (block cursor earlier (indent :: outer) allowsKey).readToken first (last :: rest) =
      .ok (inside [none, key]) := by
    rw [hfirst, readFlowStart, hsave]
    change Except.ok (Lexer.emit (Lexer.advance (Lexer.allow _ true) 1) start) = _
    have hadvance : cursor.advance 1 = cursor.pass [first] (last :: rest) :=
      Cursor.advance_eq [first] hcursor
    simp only [allow, advance, emit, hadvance]
    rfl
  obtain ⟨kept, hinside, hkept⟩ := exists_settle_eq_of_flow (s := inside [none, key]) rfl rfl
    (fun k hk => (hkey k hk).1) (by simpa [inside] using hinner)
  have hclose : (inside [none, kept]).readToken last rest =
      .ok ⟨cursor.pass [first, last] rest, stop :: start :: earlier, earlier.length + 1 + 1,
        indent :: outer, [kept], false⟩ := by
    have hadvance : (cursor.pass [first] (last :: rest)).advance 1 =
        cursor.pass [first, last] rest := by
      have hpass := Cursor.pass_pass cursor [first] [last] (last :: rest) rest
      exact (Cursor.advance_eq [last] rfl).trans hpass
    rw [hlast, readFlowEnd]
    change Except.ok (Lexer.emit (Lexer.advance (Lexer.allow _ false) 1) stop) = _
    simp only [inside, allow, advance, emit, hadvance]
    rfl
  refine Passes.head (steps_of_readToken hsettle hcursor hopen (Nat.le_refl _)) ?_
  refine Passes.head (steps_of_readToken hinside rfl hclose (Nat.le_refl _)) ⟨_, .refl, ?_⟩
  exact settle_newline (fun k hk => hkey k (hkept k hk)) hnext false

/-- Empty square brackets stand on their own. -/
theorem isAtom_squareBrackets (indent : Nat) :
    IsAtom indent ['[', ']'] [.flowSequenceStart, .flowSequenceEnd] := by
  refine isAtom_brackets indent (fun s rest => ?_) (fun s rest => ?_) (by decide)
  · simp [readToken, isDocumentMark_cons_eq_false]
  · simp [readToken, isDocumentMark_cons_eq_false]

/-- Empty braces stand on their own. -/
theorem isAtom_braces (indent : Nat) :
    IsAtom indent ['\x7b', '\x7d'] [.flowMappingStart, .flowMappingEnd] := by
  refine isAtom_brackets indent (fun s rest => ?_) (fun s rest => ?_) (by decide)
  · simp [readToken, isDocumentMark_cons_eq_false]
  · simp [readToken, isDocumentMark_cons_eq_false]

end Brackets

end EnumLabels.Yaml.Lexer
