import Mathlib.Data.List.OfFn
import GestaltModel.FreshNames.Basic
import GestaltModel.Primitives.GoMap

namespace Agents

structure UnavailableToolTarget where
  reason : String
  message : String
  deriving DecidableEq

structure RunAsSubject where
  subjectID : String
  deriving DecidableEq

structure ToolTarget where
  system : String := ""
  app : String := ""
  operation : String := ""
  connection : String := ""
  instance_ : String := ""
  credentialMode : String := ""
  unavailable : Option UnavailableToolTarget := none
  runAs : Option RunAsSubject := none
  deriving DecidableEq

-- What names a tool. Its title, texts, schemas and annotations are left out.
structure ListedTool where
  toolID : String
  mcpName : String
  target : ToolTarget
  deriving DecidableEq

def listedAgentToolUnavailable (tool : ListedTool) : Bool :=
  tool.target.unavailable.isSome

def listedAgentToolSortLess (a b : ListedTool) : Bool :=
  if listedAgentToolUnavailable a ≠ listedAgentToolUnavailable b then
    !listedAgentToolUnavailable a
  else if a.mcpName ≠ b.mcpName then
    a.mcpName < b.mcpName
  else if a.target.system ≠ b.target.system then
    a.target.system < b.target.system
  else if a.target.app ≠ b.target.app then
    a.target.app < b.target.app
  else if a.target.operation ≠ b.target.operation then
    a.target.operation < b.target.operation
  else if a.target.connection ≠ b.target.connection then
    a.target.connection < b.target.connection
  else if a.target.instance_ ≠ b.target.instance_ then
    a.target.instance_ < b.target.instance_
  else if a.target.credentialMode ≠ b.target.credentialMode then
    a.target.credentialMode < b.target.credentialMode
  else
    a.toolID < b.toolID

-- The names given so far, and for each base the number its next candidate starts at.
structure ToolNames where
  used : Finset String
  nextSuffix : GoMap Nat

def numbered (base : String) (suffix : Nat) : String :=
  base ++ "_" ++ toString suffix

theorem numbered_injective (base : String) : (numbered base).Injective :=
  fun _ _ => FreshNames.numbered_injective

def ToolNames.add (names : ToolNames) (base : String) : String × ToolNames :=
  if base ∈ names.used then
    let suffix := FreshNames.firstFree (numbered_injective base) names.used
      (max 2 ((names.nextSuffix.lookup base).getD 0))
    let name := numbered base suffix
    (name, ⟨insert name names.used, names.nextSuffix.insert base (suffix + 1)⟩)
  else
    (base, { names with used := insert base names.used })

def ListedTool.baseName (tool : ListedTool) : String :=
  if Text.trimSpace tool.mcpName = "" then "tool" else Text.trimSpace tool.mcpName

def ToolNames.rename (names : ToolNames) (tool : ListedTool) : ListedTool × ToolNames :=
  let added := names.add tool.baseName
  ({ tool with mcpName := added.1 }, added.2)

-- The slice is written in place. An index of it is always in range.
def assignName {n : Nat} (s : (Fin n → ListedTool) × ToolNames) (i : Fin n) :
    (Fin n → ListedTool) × ToolNames :=
  let renamed := s.2.rename (s.1 i)
  (Function.update s.1 i renamed.1, renamed.2)

def assignUniqueListedAgentToolNamesInOrder {n : Nat} (tools : Fin n → ListedTool)
    (order : List (Fin n)) : Fin n → ListedTool :=
  (order.foldl assignName (tools, ⟨∅, ∅⟩)).1

def assignStableUniqueListedAgentToolNames (tools : List ListedTool) : List ListedTool :=
  .ofFn <| assignUniqueListedAgentToolNamesInOrder tools.get <|
    (List.finRange tools.length).insertionSort fun i j =>
      ¬listedAgentToolSortLess (tools.get j) (tools.get i)

end Agents
