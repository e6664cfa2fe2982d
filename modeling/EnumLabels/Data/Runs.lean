/-!
# Sorting by runs

A list is cut into runs that are in order, and neighbouring runs are merged until one is left. By
a relation that is an order the result is the sorted list, in which equal items keep their order.
By any other relation the result depends on the pairs that are compared, which are these.

A run goes on as long as no item is below the item before it, or as long as every item is, and
then it is turned round. A run that is too short takes up the items after it, each put at the
place to which halving leads.

Before a new run is taken up, earlier runs are merged if their middles lie closer together, in
halves of halves of the whole list, than the middles of the last run and the new one.

Merging leaves alone what already is in its place at both ends. The rest is merged from the front
if the second run is not the shorter one, and from the back if it is. It is merged item by item
until one of the runs has won several times in a row. From then on whole stretches are taken,
whose ends are sought in leaps.
-/

namespace EnumLabels.Runs

variable {α : Type}

/-! ### Places -/

/-- Whether there is an item at a place and it goes before what is to be placed. -/
def goesBefore (before : α → Bool) (items : List α) (i : Nat) : Bool :=
  (items[i]?.map before).getD false

/-- The place between two places of a list behind the items that go before. Every step halves the
distance. -/
def placeBetween (before : α → Bool) (items : List α) (first last : Nat) : Nat :=
  if first < last then
    let middle := (first + last) / 2
    if goesBefore before items middle then placeBetween before items (middle + 1) last
    else placeBetween before items first middle
  else first
termination_by last - first

/-- The last distance that was found to hold and the next one, which either does not hold or is
the limit. Every leap doubles the distance. -/
def leap (holds : Nat → Bool) (limit last next : Nat) : Nat × Nat :=
  if next < limit then
    if holds next then leap holds limit next (2 * next + 1) else (last, next)
  else (last, limit)
termination_by limit - next

/-- The place in a list behind the items that go before, sought in leaps from a place of the
list. -/
def placeFrom (before : α → Bool) (items : List α) (start : Nat) : Nat :=
  if goesBefore before items start then
    let (last, next) :=
      leap (fun k => goesBefore before items (start + k)) (items.length - start) 0 1
    placeBetween before items (start + last + 1) (start + next)
  else
    let (last, next) := leap (fun k => !goesBefore before items (start - k)) (start + 1) 0 1
    placeBetween before items (start + 1 - next) (start - last)

/-- Put an item into a run, behind the items that it is not below. -/
def insert (below : α → α → Bool) (items : List α) (x : α) : List α :=
  let place := placeBetween (fun y => !below x y) items 0 items.length
  items.take place ++ x :: items.drop place

/-! ### Runs -/

/-- Split a list behind the longest run in which each item is, or is not, below the item before
it. The item before the list is given. -/
def splitRun (below : α → α → Bool) (falling : Bool) (previous : α) : List α → List α × List α
  | [] => ([], [])
  | x :: rest =>
    if below x previous == falling then
      let (run, after) := splitRun below falling x rest
      (x :: run, after)
    else ([], x :: rest)

/-- The first run of a list, which takes up items until it has the least length, and the items
after it. -/
def firstRun (below : α → α → Bool) (least : Nat) : List α → List α × List α
  | [] => ([], [])
  | [x] => ([x], [])
  | x :: y :: rest =>
    let falling := below y x
    let (more, after) := splitRun below falling x (y :: rest)
    let run := if falling then (x :: more).reverse else x :: more
    let missing := least - run.length
    ((after.take missing).foldl (insert below) run, after.drop missing)

/-- The least length of a run in a list: the length, halved until it is below 64 and rounded up.
The second argument is one if a half was left over before. -/
def leastLength (length rest : Nat) : Nat :=
  if 64 ≤ length then leastLength (length / 2) (max rest (length % 2)) else length + rest
termination_by length

/-! ### Merging two runs -/

/-- The number of wins in a row for which merging waits at first, and the number of items of a
stretch that is worth a leap. -/
def longStretch : Nat := 7

/-- Two runs while they are merged. One of them counts as the short one. -/
structure Merging (α : Type) where
  /-- The items that have been merged, the latest first. -/
  merged : List α
  short : List α
  long : List α
  /-- How often in a row a run has to win before stretches are taken. -/
  patience : Nat

/-- The result of merging runs, with the patience that is left. -/
structure Merged (α : Type) where
  items : List α
  patience : Nat

/-- How two runs are merged. -/
structure Direction (α : Type) where
  /-- Whether an item of the long run is taken before an item of the short one. -/
  takesLong : α → α → Bool
  /-- The number of items of the short run to take before an item of the long one. -/
  countShort : α → List α → Nat
  /-- The number of items of the long run to take before an item of the short one. -/
  countLong : α → List α → Nat
  /-- Whether the first stretch is taken from the short run. -/
  shortLeaps : Bool

/-- Merging from the front, where the short run stood before the long one. -/
def upward (below : α → α → Bool) : Direction α where
  takesLong y x := below y x
  countShort y xs := placeFrom (fun x => !below y x) xs 0
  countLong x ys := placeFrom (fun y => below y x) ys 0
  shortLeaps := true

/-- Merging from the back, where the short run stood behind the long one. Both are turned
round. -/
def downward (below : α → α → Bool) : Direction α where
  takesLong y x := below x y
  countShort y xs := xs.length - placeFrom (fun x => below x y) xs.reverse (xs.length - 1)
  countLong x ys := ys.length - placeFrom (fun y => !below x y) ys.reverse (ys.length - 1)
  shortLeaps := false

namespace Merging

/-- Go on merging, unless one run is used up or only one item of the short run is left, which
then goes to the end. -/
def goOn (m : Merging α) : Except (Merged α) (Merging α) :=
  match m.short, m.long with
  | short, [] => .error ⟨m.merged.reverse ++ short, m.patience⟩
  | [], long => .error ⟨m.merged.reverse ++ long, m.patience⟩
  | [x], long => .error ⟨m.merged.reverse ++ long ++ [x], m.patience⟩
  | _, _ => .ok m

/-- Take items from the short run. -/
def takeShort (m : Merging α) (count : Nat) : Except (Merged α) (Merging α) :=
  goOn { m with
    merged := (m.short.take count).reverse ++ m.merged
    short := m.short.drop count }

/-- Take items from the long run. -/
def takeLong (m : Merging α) (count : Nat) : Except (Merged α) (Merging α) :=
  goOn { m with
    merged := (m.long.take count).reverse ++ m.merged
    long := m.long.drop count }

/-- Take a stretch of the short run and the item of the long one behind it. The length of the
stretch is given back as well. -/
def leapShort (d : Direction α) (m : Merging α) : Except (Merged α) (Merging α × Nat) := do
  let count := (m.long.head?.map fun y => d.countShort y m.short).getD 0
  return (← (← m.takeShort count).takeLong 1, count)

/-- Take a stretch of the long run and the item of the short one behind it. -/
def leapLong (d : Direction α) (m : Merging α) : Except (Merged α) (Merging α × Nat) := do
  let count := (m.short.head?.map fun x => d.countLong x m.long).getD 0
  return (← (← m.takeLong count).takeShort 1, count)

/-- Take a stretch of each run, and find the length of the longer stretch. -/
def leapBoth (d : Direction α) (m : Merging α) : Except (Merged α) (Merging α × Nat) := do
  let (m, first) ← if d.shortLeaps then m.leapShort d else m.leapLong d
  let (m, second) ← if d.shortLeaps then m.leapLong d else m.leapShort d
  return (m, max first second)

mutual

/-- Merge item by item. It is given how often each run has won in a row. -/
def byItems (d : Direction α) (m : Merging α) (shortWins longWins : Nat) :
    (fuel : Nat) → Merged α
  | 0 => ⟨m.merged.reverse ++ m.short ++ m.long, m.patience⟩
  | fuel + 1 =>
    match m.short, m.long with
    | x :: _, y :: _ =>
      if d.takesLong y x then
        match m.takeLong 1 with
        | .error found => found
        | .ok next =>
          if next.patience ≤ longWins + 1 then byStretches d next fuel
          else byItems d next 0 (longWins + 1) fuel
      else
        match m.takeShort 1 with
        | .error found => found
        | .ok next =>
          if next.patience ≤ shortWins + 1 then byStretches d next fuel
          else byItems d next (shortWins + 1) 0 fuel
    | short, long => ⟨m.merged.reverse ++ short ++ long, m.patience⟩

/-- Merge by stretches as long as one of them is worth a leap. Each time makes the next change to
stretches easier, and going back to single items makes it harder. -/
def byStretches (d : Direction α) (m : Merging α) : (fuel : Nat) → Merged α
  | 0 => ⟨m.merged.reverse ++ m.short ++ m.long, m.patience⟩
  | fuel + 1 =>
    match m.leapBoth d with
    | .error found => found
    | .ok (next, longest) =>
      if longStretch ≤ longest then
        byStretches d { next with patience := max 1 (next.patience - 1) } fuel
      else byItems d { next with patience := next.patience + 1 } 0 0 fuel

end

end Merging

/-- Merge two runs. The first item is one of the long run. -/
def Direction.merge (d : Direction α) (short long : List α) (patience : Nat) : Merged α :=
  match (Merging.mk [] short long patience).takeLong 1 with
  | .error found => found
  | .ok m => m.byItems d 0 0 (short.length + long.length)

/-- Merge two neighbouring runs. -/
def merge (below : α → α → Bool) (patience : Nat) (run next : List α) : Merged α :=
  let kept := (next.head?.map fun y => placeFrom (fun x => !below y x) run 0).getD run.length
  let first := run.drop kept
  match first.getLast? with
  | none => ⟨run ++ next, patience⟩
  | some x =>
    let count := placeFrom (fun y => below y x) next (next.length - 1)
    let second := next.take count
    let between :=
      if first.length ≤ second.length then (upward below).merge first second patience
      else
        let found := (downward below).merge second.reverse first.reverse patience
        ⟨found.items.reverse, found.patience⟩
    ⟨run.take kept ++ between.items ++ next.drop count, between.patience⟩

/-! ### Merging all runs -/

/-- A run that waits for being merged, with the depth that parts it from the next run. -/
structure Waiting (α : Type) where
  run : List α
  depth : Nat

/-- The runs so far. -/
structure Sorting (α : Type) where
  /-- The runs before the last one, the latest first. -/
  waiting : List (Waiting α)
  last : List α
  patience : Nat

/-- The number of halvings of a length that it takes to part two places in it, which are given
doubled. -/
def partingDepth (length a b : Nat) : (fuel : Nat) → Nat
  | 0 => 0
  | fuel + 1 =>
    if length ≤ a then partingDepth length (2 * (a - length)) (2 * (b - length)) fuel + 1
    else if length ≤ b then 1
    else partingDepth length (2 * a) (2 * b) fuel + 1

/-- The depth that parts the middles of a run and of the run after it. -/
def depthBetween (length start run next : Nat) : Nat :=
  partingDepth length (2 * start + run) (2 * start + 2 * run + next) length

namespace Sorting

/-- Merge the last run with the runs before it that lie deeper than a depth. -/
def collapse (below : α → α → Bool) (depth : Nat) (last : List α) (patience : Nat) :
    List (Waiting α) → Sorting α
  | [] => ⟨[], last, patience⟩
  | w :: waiting =>
    if depth < w.depth then
      let found := merge below patience w.run last
      collapse below depth found.items found.patience waiting
    else ⟨w :: waiting, last, patience⟩

/-- Take up a new run. -/
def add (below : α → α → Bool) (s : Sorting α) (depth : Nat) (run : List α) : Sorting α :=
  let merged := collapse below depth s.last s.patience s.waiting
  ⟨⟨merged.last, depth⟩ :: merged.waiting, run, merged.patience⟩

/-- Merge all runs. Of three runs the first two are merged if the first one is shorter than the
last one. -/
def finish (below : α → α → Bool) (last : List α) (patience : Nat) :
    (waiting : List (Waiting α)) → List α
  | [] => last
  | [w] => (merge below patience w.run last).items
  | w :: v :: waiting =>
    if v.run.length < last.length then
      let found := merge below patience v.run w.run
      finish below last found.patience (⟨found.items, v.depth⟩ :: waiting)
    else
      let found := merge below patience w.run last
      finish below found.items found.patience (v :: waiting)
termination_by waiting => waiting.length

/-- Take up the runs of a list. The last run starts at the given place of the whole list, of
which the length and the least length of a run are given. -/
def addAll (below : α → α → Bool) (length least start : Nat) (s : Sorting α) :
    (fuel : Nat) → List α → Sorting α
  | 0, _ => s
  | _, [] => s
  | fuel + 1, x :: rest =>
    let (run, after) := firstRun below least (x :: rest)
    let depth := depthBetween length start s.last.length run.length
    addAll below length least (start + s.last.length) (s.add below depth run) fuel after

end Sorting

/-- Sort a list by a relation. -/
def sort (below : α → α → Bool) (items : List α) : List α :=
  let least := leastLength items.length 0
  let (run, rest) := firstRun below least items
  let s := Sorting.addAll below items.length least 0 ⟨[], run, longStretch⟩ rest.length rest
  Sorting.finish below s.last s.patience s.waiting

end EnumLabels.Runs
