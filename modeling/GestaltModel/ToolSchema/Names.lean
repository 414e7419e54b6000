import GestaltModel.FreshNames.Basic
import GestaltModel.Primitives.GoMap

namespace ToolSchema

def maxPropertyNameLength : Nat := 64

structure NameMapping where
  name : String
  wireName : String
  deriving DecidableEq

structure NameAllocator where
  used : GoMap String

def newNameAllocator : NameAllocator :=
  ⟨∅⟩

def isPropertyNameChar (r : Char) : Bool :=
  ('a' ≤ r ∧ r ≤ 'z') ∨ ('A' ≤ r ∧ r ≤ 'Z') ∨ ('0' ≤ r ∧ r ≤ '9') ∨ r = '_' ∨ r = '.' ∨ r = '-'

-- The regular expression `^[a-zA-Z0-9_.-]{1,64}$`
def validPropertyName (name : String) : Bool :=
  name.toList.all isPropertyNameChar && 1 ≤ name.length && name.length ≤ maxPropertyNameLength

def writeNamedSeparator (b : List Char) (name : String) : List Char :=
  (if b.length > 0 then b ++ ['_'] else b) ++ name.toList ++ ['_']

def writeRune (b : List Char) (r : Char) : List Char :=
  if isPropertyNameChar r then b ++ [r]
  else if r = '[' then b ++ ['_']
  else if r = ']' then b
  else if r = '$' then writeNamedSeparator b "dollar"
  else if r = '@' then writeNamedSeparator b "at"
  else if r.toNat ∈ [39, 34, 96] then b -- the three quotes
  else b ++ ['_']

-- The 32-bit FNV-1a hash
def hashPropertyName (raw : String) : UInt32 :=
  raw.toUTF8.toList.foldl (fun h c => (h ^^^ c.toUInt32) * 16777619) 2166136261

-- `fmt.Sprintf("_%08x", hash)`
def hashSuffix (hash : UInt32) : List Char :=
  '_' :: [7, 6, 5, 4, 3, 2, 1, 0].map fun i => (hash.toNat / 16 ^ i % 16).digitChar

-- The first half of `safePropertyName`.
def writtenName (raw : String) : List Char :=
  let name := raw.toList.foldl writeRune []
  if name = [] then "param".toList else name

def safePropertyName (raw : String) : String :=
  let name := writtenName raw
  if name.length ≤ maxPropertyNameLength then
    .ofList name
  else
    let suffix := hashSuffix (hashPropertyName raw)
    .ofList (name.take (maxPropertyNameLength - suffix.length) ++ suffix)

def normalizePropertyName (raw : String) : String × String :=
  if safePropertyName raw = raw then (raw, "") else (safePropertyName raw, raw)

-- The names that `unique` tries for a base that is in use.
def candidate (baseName : String) (i : Nat) : String :=
  .ofList (baseName.toList.take (maxPropertyNameLength - ("_" ++ toString i).length)) ++ "_" ++
    toString i

theorem candidate_injective (baseName : String) : (candidate baseName).Injective :=
  fun _ _ => FreshNames.numbered_injective

namespace NameAllocator

variable (a : NameAllocator)

def unique (baseName rawName : String) : String × NameAllocator :=
  let name :=
    if baseName ∈ a.used then
      candidate baseName (FreshNames.firstFree (candidate_injective baseName) a.used.keys 2)
    else
      baseName
  (name, ⟨a.used.insert name rawName⟩)

def allocate (raw : String) : NameMapping × NameAllocator :=
  let normalized := normalizePropertyName raw
  let unique := a.unique normalized.1 raw
  (⟨unique.1, if unique.1 ≠ normalized.1 ∧ normalized.2 = "" then raw else normalized.2⟩, unique.2)

end NameAllocator

-- What one allocator returns for the names it is given.
def allocateAll (raws : List String) : List NameMapping :=
  FreshNames.run NameAllocator.allocate newNameAllocator raws

-- Where the original name of a parameter is found.
def NameMapping.original (m : NameMapping) : String :=
  if m.wireName ≠ "" then m.wireName else m.name

end ToolSchema
