import EnumLabels.Scan.Closure
import Mathlib.Data.List.Forall2
import Mathlib.Data.List.Infix

/-!
# Nesting as a balance of braces

The depth of a nesting grows by the balance of the text that is read, the number of its open
braces less that of its close braces. Reading goes on as long as no part of the text brings an
opened nesting back to depth zero. Both are facts about one run of characters, so where the
lines of a closure end does not matter to them.

The search for the line that closes a closure is read off them: lines that can be read to their
end are passed over, the line of the character that closes the closure is found, and a later
number of the first line makes the found number as much later. Only what each line does to a nesting
matters to it.
-/

namespace EnumLabels

namespace Braces

/-- The number of open braces of a text. -/
def opens (b : Braces) (text : List Char) : Nat := text.countP fun c => b.opening = some c

/-- The number of close braces of a text. -/
def closes (b : Braces) (text : List Char) : Nat := text.countP fun c => b.closing = some c

/-- No brace both opens and closes. -/
def AreDistinct (b : Braces) : Prop := ∀ c, b.opening = some c → b.closing ≠ some c

/-- The open braces of consecutive texts add up. -/
@[simp] theorem opens_append (b : Braces) (text more : List Char) :
    b.opens (text ++ more) = b.opens text + b.opens more := List.countP_append

/-- The close braces of consecutive texts add up. -/
@[simp] theorem closes_append (b : Braces) (text more : List Char) :
    b.closes (text ++ more) = b.closes text + b.closes more := List.countP_append

end Braces

/-- The number of open braces of a text less the number of its close braces. -/
def Options.balance (o : Options) (text : List Char) : Int :=
  (text.count o.openBrace : Int) - text.count o.closeBrace

/-- A text that ends as many closures as it begins and never ends one that it did not begin. -/
structure Options.IsBalanced (o : Options) (text : List Char) : Prop where
  nonneg : ∀ part, part <+: text → 0 ≤ o.balance part
  total : o.balance text = 0

/-- A text in which no part that holds an open brace is in balance, so that no closure which is
opened in it is closed there. -/
def Options.RunsOn (o : Options) (text : List Char) : Prop :=
  ∀ part, part <+: text → o.openBrace ∈ part → o.balance part ≠ 0

namespace Options

instance (o : Options) (text : List Char) : Decidable (o.IsBalanced text) :=
  decidable_of_iff ((∀ part ∈ text.inits, 0 ≤ o.balance part) ∧ o.balance text = 0) <| by
    simp only [List.mem_inits]
    exact ⟨fun h => ⟨h.1, h.2⟩, fun h => ⟨h.nonneg, h.total⟩⟩

instance (o : Options) (text : List Char) : Decidable (o.RunsOn text) :=
  decidable_of_iff (∀ part ∈ text.inits, o.openBrace ∈ part → o.balance part ≠ 0) <| by
    simp [RunsOn]

/-- The braces of options are distinct. -/
theorem areDistinct_braces (o : Options) : o.braces.AreDistinct := by
  intro c hopen hclose
  exact o.braces_ne (Option.some.inj (hopen.trans hclose.symm))

/-- The open braces of options are counted. -/
theorem opens_braces (o : Options) (text : List Char) :
    o.braces.opens text = text.count o.openBrace := by
  simp only [Braces.opens, braces, Option.some.injEq, eq_comm (a := o.openBrace)]
  rfl

/-- The close braces of options are counted. -/
theorem closes_braces (o : Options) (text : List Char) :
    o.braces.closes text = text.count o.closeBrace := by
  simp only [Braces.closes, braces, Option.some.injEq, eq_comm (a := o.closeBrace)]
  rfl

/-- An empty text is in balance. -/
@[simp] theorem balance_nil (o : Options) : o.balance [] = 0 := rfl

/-- The balances of consecutive texts add up. -/
@[simp] theorem balance_append (o : Options) (text more : List Char) :
    o.balance (text ++ more) = o.balance text + o.balance more := by
  simp only [balance, List.count_append]
  omega

/-- An open brace counts one. -/
@[simp] theorem balance_openBrace_cons (o : Options) (text : List Char) :
    o.balance (o.openBrace :: text) = 1 + o.balance text := by
  have hne : ¬ (o.openBrace == o.closeBrace) = true := by simpa using o.braces_ne
  simp only [balance, List.count_cons_self, List.count_cons, if_neg hne]
  omega

/-- A text without braces is in balance. -/
theorem balance_eq_zero (o : Options) {text : List Char} (hopen : o.openBrace ∉ text)
    (hclose : o.closeBrace ∉ text) : o.balance text = 0 := by
  simp [balance, List.count_eq_zero_of_not_mem hopen, List.count_eq_zero_of_not_mem hclose]

/-- After the first open brace a text in balance keeps the closure open. -/
theorem runsOn_of_isBalanced (o : Options) {lead body : List Char} (hopen : o.openBrace ∉ lead)
    (hclose : o.closeBrace ∉ lead) (hbody : o.IsBalanced body) :
    o.RunsOn (lead ++ o.openBrace :: body) := by
  intro part hpart hmem
  rcases List.prefix_or_prefix_of_prefix hpart (List.prefix_append lead _) with h | ⟨rest, rfl⟩
  · exact absurd (h.subset hmem) hopen
  · rw [List.prefix_append_right_inj] at hpart
    obtain rfl | ⟨inner, rfl, hinner⟩ := List.prefix_cons_iff.mp hpart
    · simp [hopen] at hmem
    · have hnonneg := hbody.nonneg inner hinner
      rw [balance_append, o.balance_eq_zero hopen hclose, balance_openBrace_cons]
      omega

end Options

namespace Nesting

/-- The nesting after a text, whether or not the closure is closed within it. -/
def after (braces : Braces) (n : Nesting) (text : List Char) : Nesting :=
  text.foldl (next braces) n

/-- The depth grows by the open braces of a text and falls by the close braces, and an open brace
in it opens the nesting. -/
theorem after_eq_counts {b : Braces} (hdistinct : b.AreDistinct) (n : Nesting) (text : List Char) :
    n.after b text =
      ⟨n.depth + b.opens text - b.closes text, n.opened || decide (0 < b.opens text)⟩ := by
  induction text generalizing n with
  | nil => simp [after, Braces.opens, Braces.closes]
  | cons c rest ih =>
    change (n.next b c).after b rest = _
    rw [ih, next]
    by_cases hopen : b.opening = some c
    · have hclose := hdistinct c hopen
      simp [Braces.opens, Braces.closes, hopen, hclose]
      omega
    · by_cases hclose : b.closing = some c
      · simp [Braces.opens, Braces.closes, hopen, hclose]
        omega
      · simp [Braces.opens, Braces.closes, hopen, hclose]

/-- From the start, a closure is closed after a text when braces have opened and as many have
closed. -/
theorem isClosed_after_start_iff {b : Braces} (hdistinct : b.AreDistinct) (text : List Char) :
    (start.after b text).isClosed = true ↔ 0 < b.opens text ∧ b.opens text = b.closes text := by
  rw [after_eq_counts hdistinct]
  simp only [start, isClosed, Bool.false_or, Bool.and_eq_true, decide_eq_true_eq, beq_iff_eq]
  omega

/-- The depth grows by the balance of the text, and an open brace in it opens the nesting. -/
theorem after_eq (o : Options) (n : Nesting) (text : List Char) :
    n.after o.braces text =
      ⟨n.depth + o.balance text, n.opened || text.contains o.openBrace⟩ := by
  have hopens : decide (0 < text.count o.openBrace) = text.contains o.openBrace := by
    rw [Bool.eq_iff_iff, decide_eq_true_iff, List.count_pos_iff, List.contains_iff_mem]
  rw [after_eq_counts o.areDistinct_braces, o.opens_braces, o.closes_braces, hopens,
    Options.balance, Int.add_sub_assoc]

/-- Two texts are read one after the other. -/
theorem readLine?_append (braces : Braces) (n : Nesting) (text more : List Char) :
    n.readLine? braces (text ++ more) =
      (n.readLine? braces text).bind fun n' => n'.readLine? braces more := by
  induction text generalizing n with
  | nil => rfl
  | cons c rest ih =>
    simp only [List.cons_append, readLine?]
    split
    · rfl
    · exact ih _

/-- Characters that are no braces leave a nesting as it is. -/
theorem readLine?_eq_self {braces : Braces} {n : Nesting} (hn : n.isClosed = false)
    {text : List Char} (hopen : ∀ c ∈ text, braces.opening ≠ some c)
    (hclose : ∀ c ∈ text, braces.closing ≠ some c) : n.readLine? braces text = some n := by
  induction text with
  | nil => rfl
  | cons c rest ih =>
    have hnext : n.next braces c = n := by
      rw [next, if_neg (hopen c List.mem_cons_self), if_neg (hclose c List.mem_cons_self)]
    simp only [readLine?, hnext, hn, Bool.false_eq_true, if_false]
    exact ih (fun d hd => hopen d (List.mem_cons_of_mem _ hd))
      fun d hd => hclose d (List.mem_cons_of_mem _ hd)

/-- A text that is read to its end does not close the closure. -/
theorem isClosed_of_readLine? {braces : Braces} {n n' : Nesting} {text : List Char}
    (hn : n.isClosed = false) (h : n.readLine? braces text = some n') : n'.isClosed = false := by
  induction text generalizing n with
  | nil =>
    obtain rfl := Option.some.inj h
    exact hn
  | cons c rest ih =>
    simp only [readLine?] at h
    split at h
    · contradiction
    · next hopen => exact ih (by simpa using hopen) h

/-- A text can be read to its end exactly when no part of it closes the closure. -/
theorem readLine?_eq_some_iff (braces : Braces) (n n' : Nesting) (text : List Char) :
    n.readLine? braces text = some n' ↔
      n' = n.after braces text ∧
        ∀ part, part <+: text → part ≠ [] → (n.after braces part).isClosed = false := by
  induction text generalizing n with
  | nil =>
    simp only [readLine?, Option.some.injEq, List.prefix_nil]
    exact ⟨fun h => ⟨h.symm, fun part hpart hne => absurd hpart hne⟩, fun h => h.1.symm⟩
  | cons c rest ih =>
    simp only [readLine?]
    split
    · next hclosed =>
      constructor
      · intro h
        contradiction
      · rintro ⟨-, h⟩
        have hfirst := h [c] ⟨rest, rfl⟩ (by simp)
        exact absurd hclosed (by simpa [after] using hfirst)
    · next hclosed =>
      rw [ih]
      refine and_congr_right fun _ => ⟨?_, ?_⟩
      · intro h part hpart hne
        obtain rfl | ⟨tail, rfl, htail⟩ := List.prefix_cons_iff.mp hpart
        · contradiction
        · by_cases hnil : tail = []
          · subst hnil
            simpa [after] using hclosed
          · exact h tail htail hnil
      · intro h part hpart _
        exact h (c :: part) (List.prefix_cons_iff.mpr (.inr ⟨part, rfl, hpart⟩)) (by simp)

/-- From the start, a text can be read to its end exactly when no closure is closed in it. -/
theorem readLine?_start_iff (o : Options) (n : Nesting) (text : List Char) :
    start.readLine? o.braces text = some n ↔
      n = ⟨o.balance text, text.contains o.openBrace⟩ ∧ o.RunsOn text := by
  rw [readLine?_eq_some_iff]
  simp only [after_eq, start, isClosed, Int.zero_add, Bool.false_or, Bool.and_eq_false_imp,
    List.contains_iff_mem, beq_eq_false_iff_ne]
  refine and_congr_right fun _ => forall_congr' fun part => imp_congr_right fun _ => ?_
  exact ⟨fun h hmem => h (List.ne_nil_of_mem hmem) hmem, fun h _ hmem => h hmem⟩

/-- An opened nesting reads a text to its end if no part of it takes away the whole depth. -/
theorem readLine?_of_opened (o : Options) {n : Nesting} (hopened : n.opened = true)
    {text : List Char} (hdepth : ∀ part, part <+: text → n.depth + o.balance part ≠ 0) :
    n.readLine? o.braces text = some ⟨n.depth + o.balance text, true⟩ := by
  rw [readLine?_eq_some_iff]
  refine ⟨by simp [after_eq, hopened], fun part hpart _ => ?_⟩
  simpa [after_eq, isClosed, hopened] using hdepth part hpart

end Nesting

/-- Lines that can be read to their end are passed over. -/
theorem closingLine?_append (braces : Braces) {n n' : Nesting} {before : List Line}
    (h : n.readLine? braces before.flatten = some n') (index : Nat) (lines : List Line) :
    closingLine? braces n index (before ++ lines) =
      closingLine? braces n' (index + before.length) lines := by
  induction before generalizing n index with
  | nil =>
    obtain rfl : n = n' := by simpa [Nesting.readLine?] using h
    rfl
  | cons line before ih =>
    rw [List.flatten_cons, Nesting.readLine?_append] at h
    obtain ⟨m, hline, hrest⟩ := Option.bind_eq_some_iff.mp h
    simp only [List.cons_append, closingLine?, hline]
    rw [ih hrest, List.length_cons]
    congr 1
    omega

/-- The closing line is the line of the character that closes the closure. -/
theorem closingLine?_split {b : Braces} {n n' : Nesting} {before after : List Line}
    {front back : List Char} {c : Char}
    (hread : n.readLine? b (before.flatten ++ front) = some n')
    (hclosed : (n'.next b c).isClosed = true) (index : Nat) :
    closingLine? b n index (before ++ (front ++ c :: back) :: after) =
      some (index + before.length) := by
  rw [Nesting.readLine?_append] at hread
  obtain ⟨m, hbefore, hfront⟩ := Option.bind_eq_some_iff.mp hread
  have hline : m.readLine? b (front ++ c :: back) = none := by
    rw [Nesting.readLine?_append, hfront]
    change (if (n'.next b c).isClosed then none else _) = none
    rw [if_pos hclosed]
  rw [closingLine?_append b hbefore, closingLine?, hline]

/-- A later number of the first line makes the number of the closing line as much later. -/
theorem closingLine?_add (braces : Braces) (n : Nesting) (index shift : Nat) (lines : List Line) :
    closingLine? braces n (index + shift) lines =
      (closingLine? braces n index lines).map (· + shift) := by
  induction lines generalizing n index with
  | nil => rfl
  | cons line lines ih =>
    simp only [closingLine?]
    split
    · rfl
    · rw [Nat.add_right_comm, ih]

/-- The closing line is one of the lines that are read. -/
theorem closingLine?_bounds (braces : Braces) {n : Nesting} {index k : Nat} {lines : List Line}
    (h : closingLine? braces n index lines = some k) :
    index ≤ k ∧ k < index + lines.length := by
  induction lines generalizing n index with
  | nil => contradiction
  | cons line lines ih =>
    simp only [closingLine?] at h
    rw [List.length_cons]
    split at h
    · obtain rfl := Option.some.inj h
      omega
    · have hbounds := ih h
      omega

/-- In a closure that is not closed before, both lines close it or leave it as deep. -/
def Line.NestAlike (braces : Braces) (line other : Line) : Prop :=
  ∀ n : Nesting, n.isClosed = false → n.readLine? braces other = n.readLine? braces line

/-- Lines that nest alike have the same closing line. -/
theorem closingLine?_eq_of_nestAlike {braces : Braces} {lines others : List Line}
    (h : List.Forall₂ (Line.NestAlike braces) lines others) {n : Nesting} (hn : n.isClosed = false)
    (index : Nat) : closingLine? braces n index others = closingLine? braces n index lines := by
  induction h generalizing n index with
  | nil => rfl
  | @cons line other lines others hline _ ih =>
    simp only [closingLine?, hline n hn]
    cases hread : n.readLine? braces line with
    | none => rfl
    | some n' => exact ih (Nesting.isClosed_of_readLine? hn hread) (index + 1)

/-- In lines that nest alike the same closure is skipped. -/
theorem skipClosure_eq_of_nestAlike {braces : Braces} {lines others : List Line}
    (h : List.Forall₂ (Line.NestAlike braces) lines others) (line : Int) :
    skipClosure braces others line = skipClosure braces lines line := by
  simp only [skipClosure, h.length_eq,
    closingLine?_eq_of_nestAlike (List.forall₂_drop _ h) (n := Nesting.start) rfl]

end EnumLabels
