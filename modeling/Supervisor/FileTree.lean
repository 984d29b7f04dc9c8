import Supervisor.RowMap

/-! Trees of files, and what stands at a path of one. -/
namespace FileTree

inductive Node where
  | file (bytes : List UInt8)
  | directory (children : List (String × Node))
  | symlink (toDirectory : Bool)
  | special

/-- A node without what is in it. -/
inductive Entry where
  | file (bytes : List UInt8)
  | directory
  | symlink (toDirectory : Bool)
  | special
deriving DecidableEq

namespace Node

def entry : Node → Entry
  | .file bytes => .file bytes
  | .directory _ => .directory
  | .symlink toDirectory => .symlink toDirectory
  | .special => .special

def child (name : String) (children : List (String × Node)) : Option Node :=
  (KeyedRows.find Prod.fst name children).map Prod.snd

def entryAt : List String → Node → Option Entry
  | [], node => some node.entry
  | name :: path, .directory children => (child name children).bind (entryAt path)
  | _ :: _, _ => none

/-- No directory has a name twice. -/
inductive WellFormed : Node → Prop
  | file (bytes : List UInt8) : WellFormed (.file bytes)
  | directory (children : List (String × Node)) (unique : KeyedRows.Unique Prod.fst children)
      (each : ∀ c ∈ children, WellFormed c.2) : WellFormed (.directory children)
  | symlink (toDirectory : Bool) : WellFormed (.symlink toDirectory)
  | special : WellFormed .special

/-- Files and directories only. -/
inductive Plain : Node → Prop
  | file (bytes : List UInt8) : Plain (.file bytes)
  | directory (children : List (String × Node)) (unique : KeyedRows.Unique Prod.fst children)
      (each : ∀ c ∈ children, Plain c.2) : Plain (.directory children)

theorem children_induction {motive : Node → Prop} (file : ∀ bytes, motive (.file bytes))
    (directory : ∀ children, (∀ c ∈ children, motive c.2) → motive (.directory children))
    (symlink : ∀ toDirectory, motive (.symlink toDirectory)) (special : motive .special)
    (node : Node) : motive node := by
  refine @Node.rec motive (fun children => ∀ c ∈ children, motive c.2) (fun c => motive c.2)
    file directory symlink special ?_ ?_ ?_ node
  · exact fun c hc => absurd hc List.not_mem_nil
  · intro head rest hhead hrest c hc
    rcases List.mem_cons.mp hc with rfl | hc
    · exact hhead
    · exact hrest c hc
  · exact fun _ _ h => h

theorem entryAt_directory (name : String) (path : List String) (children : List (String × Node)) :
    entryAt (name :: path) (.directory children) = (child name children).bind (entryAt path) := rfl

theorem entryAt_file (path : List String) (bytes : List UInt8) :
    entryAt path (.file bytes) = if path = [] then some (.file bytes) else none := by
  cases path with
  | nil => rfl
  | cons name path => rfl

theorem child_insert (name : String) (children : List (String × Node)) (row : String × Node) :
    child name (KeyedRows.insert Prod.fst children row) =
      if row.1 = name then some row.2 else child name children := by
  unfold child
  rw [KeyedRows.find_insert]
  split
  · rfl
  · rfl

theorem mem_of_child {name : String} {children : List (String × Node)} {node : Node}
    (h : child name children = some node) : (name, node) ∈ children := by
  obtain ⟨row, hrow, rfl⟩ := Option.map_eq_some_iff.mp h
  have hname : row.1 = name := KeyedRows.find_key hrow
  rw [← hname]
  exact KeyedRows.find_mem hrow

theorem child_eq_none {name : String} {children : List (String × Node)} :
    child name children = none ↔ ∀ c ∈ children, c.1 ≠ name := by
  unfold child
  rw [Option.map_eq_none_iff, KeyedRows.find_eq_none]

theorem child_cons {name : String} {row : String × Node} {children : List (String × Node)} :
    child name (row :: children) = if row.1 = name then some row.2 else child name children := by
  unfold child KeyedRows.find
  rw [List.find?_cons]
  by_cases h : row.1 = name
  · rw [if_pos h]
    simp [h]
  · rw [if_neg h]
    simp [h]

theorem Plain.wellFormed {node : Node} (h : node.Plain) : node.WellFormed := by
  induction h with
  | file bytes => exact .file bytes
  | directory children unique each ih => exact .directory children unique ih

end Node

end FileTree
