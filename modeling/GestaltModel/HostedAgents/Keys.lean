import GestaltModel.Primitives.Text

namespace HostedAgents

open Text

-- An empty idempotency key never dedups, so it yields no routing key.
def hostedAgentCreateKey (subjectID idempotencyKey : String) : String :=
  if trimSpace idempotencyKey = "" then
    ""
  else
    trimSpace subjectID ++ "\x1f" ++ trimSpace idempotencyKey

-- The text that the name of the workspace of a keyed create is derived from.
def workspaceScope (poolName subjectID idempotencyKey : String) : String :=
  "gestalt:agent-workspace:" ++ trimSpace poolName ++ ":" ++ trimSpace subjectID ++ ":" ++
    trimSpace idempotencyKey

-- The first two parameters are `uuid.NewString`, and `uuid.NewSHA1` in the namespace of URLs.
def hostedAgentWorkspaceRef (newString : String) (newSHA1 : String → String)
    (poolName subjectID idempotencyKey : String) : String :=
  if trimSpace idempotencyKey = "" then
    newString
  else
    newSHA1 (workspaceScope poolName subjectID idempotencyKey)

-- The scope of a keyed session create: non-empty texts without surrounding space.
structure KeyedCreate where
  poolName : String
  subjectID : String
  idempotencyKey : String
  pool_trimmed : Trimmed poolName := by decide +kernel
  subject_trimmed : Trimmed subjectID := by decide +kernel
  key_trimmed : Trimmed idempotencyKey := by decide +kernel
  pool_ne : poolName ≠ "" := by decide
  subject_ne : subjectID ≠ "" := by decide
  key_ne : idempotencyKey ≠ "" := by decide

namespace KeyedCreate

def createKey (c : KeyedCreate) : String :=
  hostedAgentCreateKey c.subjectID c.idempotencyKey

def workspaceRef (newString : String) (newSHA1 : String → String) (c : KeyedCreate) : String :=
  hostedAgentWorkspaceRef newString newSHA1 c.poolName c.subjectID c.idempotencyKey

-- The pieces that the colons cut the three texts into, in their order.
def pieces (c : KeyedCreate) : List String :=
  split ':' c.poolName ++ split ':' c.subjectID ++ split ':' c.idempotencyKey

end KeyedCreate

end HostedAgents
