import EnumLabels.Proofs.Yaml.PlainText
import EnumLabels.Yaml.Token
import Mathlib.Logic.Relation

/-!
# Steps of the lexer

Between two tokens the lexer settles: it passes blanks, forgets a key that cannot be one any more
and ends the block collections that are deeper. A text is lexed by its parts, and each part is
lexed from a state that settles at its start to one that settles behind it.

Within a block there is nothing to remember but the place, the tokens so far, the columns of the
open collections and whether a key may start.
-/

namespace EnumLabels.Yaml.Lexer

/-- The lexer in a block, with no possible key. -/
def block (cursor : Cursor) (tokens : List Token) (indents : List Nat) (allowsKey : Bool) : Lexer :=
  ⟨cursor, tokens, tokens.length, indents, [none], allowsKey⟩

/-- One state comes right after another one, by a token that takes up some text. -/
def Steps (s t : Lexer) : Prop :=
  s.step = .ok (.inl t) ∧ t.cursor.rest.length < s.cursor.rest.length

/-- Some tokens lead from a state to one that settles where `u` does. -/
def Passes (s u : Lexer) : Prop := ∃ t, Relation.ReflTransGen Steps s t ∧ t.settle = .ok u.unwind

section Runs

variable {s t u v : Lexer}

/-- The fuel lasts up to the end of the text. -/
theorem run_eq_of_steps (h : Relation.ReflTransGen Steps s t) {tokens : List Token}
    (hend : t.step = .ok (.inr tokens)) {fuel : Nat} (hfuel : s.cursor.rest.length < fuel) :
    s.run fuel = tokens := by
  induction h using Relation.ReflTransGen.head_induction_on generalizing fuel with
  | refl =>
    obtain ⟨fuel, rfl⟩ : ∃ m, fuel = m + 1 := ⟨fuel - 1, by omega⟩
    rw [run, hend]
  | head hstep _ ih =>
    obtain ⟨fuel, rfl⟩ : ∃ m, fuel = m + 1 := ⟨fuel - 1, by omega⟩
    rw [run, hstep.1]
    exact ih (by have := hstep.2; omega)

/-- What a state passes to after one token it passes to. -/
theorem Passes.head (h : Steps s t) (hpasses : t.Passes u) : s.Passes u := by
  obtain ⟨t', hsteps, hsettle⟩ := hpasses
  exact ⟨t', Relation.ReflTransGen.head h hsteps, hsettle⟩

/-- Passing goes on from every state that settles there. -/
theorem Passes.trans (h : s.Passes u)
    (hnext : ∀ t : Lexer, t.settle = .ok u.unwind → t.Passes v) : s.Passes v := by
  obtain ⟨t, hsteps, hsettle⟩ := h
  obtain ⟨t', hmore, hend⟩ := hnext t hsettle
  exact ⟨t', hsteps.trans hmore, hend⟩

/-- Settling takes up text. -/
theorem length_settle_le (h : s.settle = .ok u) :
    u.cursor.rest.length ≤ s.cursor.rest.length := by
  have hcursor : u.cursor = s.toNextToken.cursor := by
    unfold settle dropStale at h
    simp only at h
    split_ifs at h
    · contradiction
    · obtain rfl := Except.ok.inj h
      unfold unwind
      split_ifs <;> rfl
  rw [hcursor]
  exact (List.drop_suffix _ _).length_le

/-- A token is read where a state settles. -/
theorem steps_of_readToken (hsettle : s.settle = .ok u) {c : Char} {rest : List Char}
    (hrest : u.cursor.rest = c :: rest) (hread : u.readToken c rest = .ok t)
    (hlength : t.cursor.rest.length ≤ rest.length) : Steps s t := by
  have hle := length_settle_le hsettle
  rw [hrest, List.length_cons] at hle
  refine ⟨?_, by omega⟩
  simp only [step, hsettle, bind, Except.bind, hrest, hread]
  rfl

end Runs

section Settling

variable {s : Lexer} {blanks next : List Char}

/-- Blanks and line ends are counted up to the next token. -/
theorem countBlanks_append (hblanks : ∀ c ∈ blanks, c = ' ' ∨ c = '\n')
    (hnext : ∀ c ∈ next.head?, c ≠ '#' ∧ isGap c = false ∧ isBreak c = false) :
    countBlanks false (blanks ++ next) = blanks.length := by
  induction blanks with
  | nil =>
    cases next with
    | nil => rfl
    | cons c next =>
      obtain ⟨hhash, hgap, hbreak⟩ := hnext c rfl
      have hblank : c ≠ ' ' := by
        rintro rfl
        exact absurd hgap (by decide)
      rw [List.nil_append, countBlanks, hbreak, if_neg Bool.false_ne_true,
        if_neg Bool.false_ne_true, if_neg hblank, if_neg hhash]
      rfl
  | cons c blanks ih =>
    obtain ⟨hc, hrest⟩ := List.forall_mem_cons.mp hblanks
    rcases hc with rfl | rfl
    · exact congrArg (· + 1) (ih hrest)
    · exact congrArg (· + 1) (ih hrest)

/-- The next token is found behind blanks and line ends. -/
theorem toNextToken_eq (blanks : List Char) (hrest : s.cursor.rest = blanks ++ next)
    (hblanks : ∀ c ∈ blanks, c = ' ' ∨ c = '\n')
    (hnext : ∀ c ∈ next.head?, c ≠ '#' ∧ isGap c = false ∧ isBreak c = false) :
    s.toNextToken = { s with
      cursor := s.cursor.pass blanks next
      allowsKey := s.allowsKey || (blanks.any isBreak && !s.inFlow) } := by
  have hcount := countBlanks_append hblanks hnext
  unfold toNextToken
  simp only [hrest, hcount, List.take_left, advance, allow, Cursor.advance_eq blanks hrest]

/-- A key on an earlier line is forgotten. -/
theorem settle_eq (blanks : List Char) {key : Option PossibleKey} (hkeys : s.keys = [key])
    (hrest : s.cursor.rest = blanks ++ next) (hblanks : ∀ c ∈ blanks, c = ' ' ∨ c = '\n')
    (hnext : ∀ c ∈ next.head?, c ≠ '#' ∧ isGap c = false ∧ isBreak c = false)
    (hkey : ∀ k ∈ key, k.required = false ∧ k.line < (s.cursor.pass blanks next).line) :
    s.settle = .ok ({ s with
      cursor := s.cursor.pass blanks next
      keys := [none]
      allowsKey := s.allowsKey || blanks.any isBreak } : Lexer).unwind := by
  have hflow : s.inFlow = false := by
    rw [inFlow, hkeys]
    rfl
  rw [settle, toNextToken_eq blanks hrest hblanks hnext, hflow, Bool.not_false, Bool.and_true]
  cases key with
  | none =>
    rw [dropStale]
    simp only [hkeys]
    rfl
  | some k =>
    obtain ⟨hrequired, hline⟩ := hkey k rfl
    have hstale : (k.line != (s.cursor.pass blanks next).line) = true := by
      rw [bne_iff_ne]
      omega
    rw [dropStale]
    simp only [hkeys, List.any_cons, List.any_nil, Option.map_some, Option.getD_some, isStale,
      hstale, hrequired, Bool.true_or, Bool.and_false, Bool.or_false, if_neg Bool.false_ne_true,
      List.map_cons, List.map_nil, if_true]
    rfl

/-- A key is remembered up to the colon behind it. -/
theorem settle_eq_of_key {key : PossibleKey} (hkeys : s.keys = [some key])
    (hnext : ∀ c ∈ s.cursor.rest.head?, c ≠ '#' ∧ isGap c = false ∧ isBreak c = false)
    (hline : key.line = s.cursor.line) (hindex : s.cursor.index ≤ key.index + 1024) :
    s.settle = .ok s.unwind := by
  have hfresh : s.isStale key = false := by
    rw [isStale, hline, bne_self_eq_false, Bool.false_or, decide_eq_false_iff_not]
    omega
  have hplace : s.toNextToken = s := by
    rw [toNextToken_eq [] rfl (by simp) hnext]
    simp
  rw [settle, hplace, dropStale]
  simp only [hkeys, List.any_cons, List.any_nil, Option.map_some, Option.getD_some, hfresh,
    Bool.false_and, Bool.or_false, if_neg Bool.false_ne_true, List.map_cons, List.map_nil]
  rw [← hkeys]
  rfl

end Settling

section Blocks

variable {cursor : Cursor} {tokens : List Token} {indents : List Nat} {indent : Nat}
  {allowsKey : Bool}

/-- The collections that are deeper than the next token end. -/
theorem unwind_block :
    let ends := (indents.takeWhile fun column => cursor.column < column).length
    (block cursor tokens indents allowsKey).unwind =
      block cursor (List.replicate ends .blockEnd ++ tokens) (indents.drop ends) allowsKey := by
  intro ends
  have hcount : (List.replicate ends Token.blockEnd ++ tokens).length = tokens.length + ends := by
    rw [List.length_append, List.length_replicate, Nat.add_comm]
  rw [block, block, hcount]
  rfl

/-- Nothing ends at the innermost column or behind it. -/
theorem unwind_eq_self {s : Lexer} (h : ∀ indent ∈ s.indents.head?, indent ≤ s.cursor.column) :
    s.unwind = s := by
  have hnone : (s.indents.takeWhile fun column => s.cursor.column < column) = [] := by
    cases hindents : s.indents with
    | nil => rfl
    | cons indent indents =>
      rw [List.takeWhile_cons_of_neg]
      simpa using h indent (by rw [hindents]; rfl)
  unfold unwind
  simp only [hnone]
  split_ifs <;> rfl

/-- A block goes on at its column or behind it. -/
theorem unwind_of_le (h : indent ≤ cursor.column) :
    (block cursor tokens (indent :: indents) allowsKey).unwind =
      block cursor tokens (indent :: indents) allowsKey :=
  unwind_eq_self (by simpa [block] using h)

/-- A block ends before its column. -/
theorem unwind_of_lt (h : cursor.column < indent) :
    (block cursor tokens (indent :: indents) allowsKey).unwind =
      (block cursor (.blockEnd :: tokens) indents allowsKey).unwind := by
  rw [unwind_block, unwind_block, List.takeWhile_cons_of_pos (by simpa using h), List.length_cons,
    List.replicate_succ', List.append_assoc, List.singleton_append, List.drop_succ_cons]

/-- States in blocks at one place are told apart by their tokens and their columns. -/
theorem block_inj {later : List Token} {columns : List Nat} :
    block cursor tokens indents allowsKey = block cursor later columns allowsKey ↔
      tokens = later ∧ indents = columns := by
  constructor
  · intro h
    exact ⟨congrArg Lexer.tokens h, congrArg Lexer.indents h⟩
  · rintro ⟨rfl, rfl⟩
    rfl

/-- A collection starts at a deeper column. -/
theorem openBlock_block (t : Token) :
    (block cursor tokens indents allowsKey).openBlock t =
      if (block cursor tokens indents allowsKey).isDeeper cursor.column then
        block cursor (t :: tokens) (cursor.column :: indents) allowsKey
      else block cursor tokens indents allowsKey :=
  rfl

/-- A deeper token starts a collection. -/
theorem openBlock_of_lt (indents : List Nat) (tokens : List Token) (allowsKey : Bool)
    (h : indent < cursor.column) (t : Token) :
    (block cursor tokens (indent :: indents) allowsKey).openBlock t =
      block cursor (t :: tokens) (cursor.column :: indent :: indents) allowsKey := by
  rw [openBlock_block, if_pos (by simpa [isDeeper, block] using h)]

/-- A token at the column of the innermost collection goes on with it. -/
theorem openBlock_of_eq (h : cursor.column = indent) (t : Token) :
    (block cursor tokens (indent :: indents) allowsKey).openBlock t =
      block cursor tokens (indent :: indents) allowsKey := by
  rw [openBlock_block, if_neg (by simp [isDeeper, block, h])]

end Blocks

end EnumLabels.Yaml.Lexer
