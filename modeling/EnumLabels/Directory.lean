import EnumLabels.Error
import EnumLabels.Text.Split

/-!
# Directories

A directory has a place in a tree of files and folders. A path is walked part by part, from the
directory itself or, if it starts with a slash, from the root of the tree. Every part but the last
must lead to a folder, and two dots lead back, at the root to the root itself.
-/

namespace EnumLabels

/-- What a path leads to. -/
inductive Entry where
  | file (bytes : List UInt8)
  | folder
  deriving DecidableEq

/-- A directory in a tree of files and folders. -/
structure Directory where
  /-- The names on the way from the root to the directory. -/
  place : List String
  /-- The files and folders, by the names on the way to them from the root. Those on the way to the
  directory need not be listed. -/
  entries : List (List String × Entry)

namespace Directory

/-- An empty directory in the root of a tree without files. -/
def empty : Directory := ⟨["work"], []⟩

/-- What lies under the given names. -/
def find? (d : Directory) (names : List String) : Option Entry :=
  if names.isPrefixOf d.place then some .folder
  else (d.entries.find? fun e => e.1 == names).map (·.2)

/-- Set what lies under the given names. -/
def insert (d : Directory) (names : List String) (entry : Entry) : Directory :=
  { d with entries := (names, entry) :: d.entries.filter fun e => e.1 != names }

/-- Remove what lies under the given names. -/
def erase (d : Directory) (names : List String) : Directory :=
  { d with entries := d.entries.filter fun e => e.1 != names }

/-- Create the folders on the way from `done` through the given names. -/
def makeFolders (d : Directory) (done : List String) : List String → Directory
  | [] => d
  | name :: rest =>
    let here := done ++ [name]
    let d' := if (d.find? here).isSome then d else d.insert here .folder
    d'.makeFolders here rest

/-- The parts of a path between its slashes. -/
def parts (path : String) : List String :=
  (Text.splitWhere (· == '/') path.toList).map String.ofList

/-- The parts of a path that name something. -/
def namesOf (path : String) : List String :=
  (parts path).filter fun part => !part.isEmpty && part != "."

/-- The names under which the walk of a path begins. -/
def start (d : Directory) (path : String) : List String :=
  if path.toList.head? = some '/' then [] else d.place

/-- Set what a path leads to and create the folders on the way. -/
def put (d : Directory) (path : String) (entry : Entry) : Directory :=
  let names := d.start path ++ namesOf path
  match entry with
  | .folder => d.makeFolders [] names
  | .file _ => (d.makeFolders [] names.dropLast).insert names entry

/-- Remove what a path leads to. -/
def remove (d : Directory) (path : String) : Directory := d.erase (d.start path ++ namesOf path)

/-- The names to which one more part of a path leads from a folder. -/
def step (d : Directory) (names : List String) (part : String) : Except FileFault (List String) :=
  match d.find? names with
  | none => .error .notFound
  | some (.file _) => .error .notDirectory
  | some .folder =>
    if part = "" ∨ part = "." then .ok names
    else if part = ".." then .ok names.dropLast
    else if 255 < part.utf8ByteSize then .error .nameTooLong
    else .ok (names ++ [part])

/-- The names to which the parts of a path lead. Nothing need lie under them. -/
def walk (d : Directory) (names : List String) : List String → Except FileFault (List String)
  | [] => .ok names
  | part :: rest =>
    match d.step names part with
    | .error fault => .error fault
    | .ok next => d.walk next rest

/-- A name that a path can hold for what it is. -/
structure IsName (part : String) : Prop where
  ne_empty : part ≠ ""
  ne_here : part ≠ "."
  ne_back : part ≠ ".."
  length_le : part.utf8ByteSize ≤ 255

/-- A name leads further from a folder. -/
theorem step_of_isName {d : Directory} {names : List String}
    (hfolder : d.find? names = some .folder) {part : String} (hpart : IsName part) :
    d.step names part = .ok (names ++ [part]) := by
  simp [step, hfolder, hpart.ne_empty, hpart.ne_here, hpart.ne_back,
    Nat.not_lt.mpr hpart.length_le]

/-- From the root the names on the way to the directory lead to it, so what follows them leads where
it leads from the directory. -/
theorem walk_place_append {d : Directory} (hplace : ∀ name ∈ d.place, IsName name)
    (rest : List String) : d.walk [] (d.place ++ rest) = d.walk d.place rest := by
  suffices hway : ∀ done more, done ++ more = d.place →
      d.walk done (more ++ rest) = d.walk d.place rest from hway [] d.place rfl
  intro done more hdone
  induction more generalizing done with
  | nil => rw [← hdone, List.append_nil, List.nil_append]
  | cons name more ih =>
    have hfolder : d.find? done = some .folder :=
      if_pos (List.isPrefixOf_iff_prefix.mpr ⟨_, hdone⟩)
    have hname : IsName name := hplace name (by simp [← hdone])
    rw [List.cons_append, walk, step_of_isName hfolder hname]
    exact ih (done ++ [name]) (by rw [← hdone, List.append_assoc, List.singleton_append])

/-- The names to which a path leads. -/
def resolve (d : Directory) (path : String) : Except FileFault (List String) :=
  if path.isEmpty then .error .notFound
  else if 4096 ≤ path.utf8ByteSize then .error .nameTooLong
  else d.walk (d.start path) (parts path)

/-- The bytes of the file at a path. -/
def read (d : Directory) (path : String) : Except FileFault (List UInt8) :=
  match d.resolve path with
  | .error fault => .error fault
  | .ok names =>
    match d.find? names with
    | some (.file bytes) => .ok bytes
    | some .folder => .error .isDirectory
    | none => .error .notFound

example : ((Directory.mk ["src"] [(["src", "E.swift"], .file [10])]).read
    "/src/../src/E.swift").toOption = some [10] := by decide +kernel

/-- Write a file at a path whose folder exists. -/
def write (d : Directory) (path : String) (bytes : List UInt8) : Except FileFault Directory :=
  match d.resolve path with
  | .error fault => .error fault
  | .ok names =>
    match d.find? names with
    | some .folder => .error .isDirectory
    | _ => .ok (d.insert names (.file bytes))

/-- A file name in a directory that a path leads to. -/
def join (path name : String) : String :=
  if path.isEmpty || path.toList.getLast? == some '/' then path ++ name else path ++ "/" ++ name

/-- Whether a path holds the character zero, which no path may. -/
def hasNul (path : String) : Bool := path.toList.contains '\x00'

end Directory

end EnumLabels
