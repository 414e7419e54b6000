import GestaltModel.Server.ManagedSecrets
import GestaltModel.Coredata.Theorems.SecretHistory

namespace Server

open Coredata ManagedSecretService
open Except (bind_eq_ok_iff mapError_eq_ok)
open Text (base64RawURL trimSpace)
open AdminSecretRequest (after write)
open Time (second)

@[simp]
theorem HTTPError.check_eq_ok [Decidable p] {status : Nat} {message : String} :
    HTTPError.check p status message = .ok u ↔ p := by
  simp [HTTPError.check]

section Base64

theorem length_encode {bytes : Bytes} {k : Nat} (h : bytes.length = 3 * k) :
    (base64RawURL.encode bytes).length = 4 * k := by
  induction k generalizing bytes
  case zero =>
    rw [List.length_eq_zero_iff.mp h]
    rfl
  case succ k hi =>
    match bytes, h with
    | _ :: _ :: _ :: rest, h =>
      have := @hi rest (by simp only [List.length_cons] at h; omega)
      simp only [base64RawURL.encode, List.length_cons]
      omega

theorem utf8Len_bounds (cs : List Char) :
    cs.length ≤ String.utf8Len cs ∧ String.utf8Len cs ≤ 4 * cs.length := by
  induction cs
  case nil => exact ⟨le_rfl, le_rfl⟩
  case cons c cs hi =>
    have := c.utf8Size_pos
    have := c.utf8Size_le_four
    rw [String.utf8Len_cons, List.length_cons]
    omega

theorem generated_accepted (env : AdminEnvironment) :
    generateSecretValue env.random ≠ "" ∧ bytes (generateSecretValue env.random) ≠ [] ∧
      (bytes (generateSecretValue env.random)).length ≤ 64 * 1024 := by
  have hl : (bytes (generateSecretValue env.random)).length =
      String.utf8Len (base64RawURL.encode env.random) :=
    String.utf8ByteSize_ofList _
  have hb := utf8Len_bounds (base64RawURL.encode env.random)
  rw [← hl, @length_encode env.random 16 env.drawn] at hb
  have hn : bytes (generateSecretValue env.random) ≠ [] := by
    intro h
    rw [h] at hb
    exact absurd hb.left (by decide)
  refine ⟨fun h => hn ?_, hn, by omega⟩
  rw [h]
  rfl

end Base64

variable {cipher : ManagedSecretCipher} {hash : Bytes → String} {env env' : AdminEnvironment}
  {caller : Option Caller} {req : ManagedSecretWriteRequest} {db db' : ManagedSecretDB}
  {response : ManagedSecretWriteResponse}

theorem writeAdminManagedSecret_eq_ok :
    writeAdminManagedSecret cipher hash env caller req db = .ok (db', response) ↔
      ∃ operation actor encrypted secret version,
        validateSecretName (trimSpace req.name) = .ok () ∧ req.parsedOperation = some operation ∧
        adminActor caller = .ok actor ∧ trimSpace req.reason ≠ "" ∧
        checkExisting operation (get (trimSpace req.name) db).toOption = .ok () ∧
        checkValue req env = .ok () ∧
        cipher.encrypt (trimSpace req.name) (req.plaintext env) env.nonce = .ok encrypted ∧
        put hash env.toSecretEnvironment (req.input operation actor encrypted) db =
          .ok (db', secret, version) ∧
        response = writeResponse req env secret version := by
  rw [writeAdminManagedSecret]
  constructor
  case mp =>
    intro h
    obtain ⟨_, hv, h⟩ := bind_eq_ok_iff.mp h
    cases ho : req.parsedOperation
    case none => simp [ho] at h
    case some operation =>
      simp only [ho] at h
      obtain ⟨actor, ha, h⟩ := bind_eq_ok_iff.mp h
      obtain ⟨_, hr, h⟩ := bind_eq_ok_iff.mp h
      obtain ⟨_, he, h⟩ := bind_eq_ok_iff.mp h
      obtain ⟨_, hc, h⟩ := bind_eq_ok_iff.mp h
      obtain ⟨encrypted, henc, h⟩ := bind_eq_ok_iff.mp h
      obtain ⟨⟨_, secret, version⟩, hp, h⟩ := bind_eq_ok_iff.mp h
      cases h
      exact ⟨operation, actor, encrypted, secret, version, mapError_eq_ok.mp hv, rfl, ha,
        HTTPError.check_eq_ok.mp hr, he, hc, mapError_eq_ok.mp henc, mapError_eq_ok.mp hp, rfl⟩
  case mpr =>
    rintro ⟨operation, actor, encrypted, secret, version, hv, ho, ha, hr, he, hc, henc, hp, rfl⟩
    refine bind_eq_ok_iff.mpr ⟨_, mapError_eq_ok.mpr hv, ?_⟩
    simp only [ho]
    refine bind_eq_ok_iff.mpr ⟨_, ha, bind_eq_ok_iff.mpr ⟨(),
      HTTPError.check_eq_ok.mpr hr, bind_eq_ok_iff.mpr ⟨_, he, bind_eq_ok_iff.mpr ⟨_, hc,
      bind_eq_ok_iff.mpr ⟨_, mapError_eq_ok.mpr henc, bind_eq_ok_iff.mpr ⟨_,
      mapError_eq_ok.mpr hp, rfl⟩⟩⟩⟩⟩⟩

theorem retireAdminManagedSecret_put
    (h : retireAdminManagedSecret env caller name reason db = .ok r) :
    ∃ actor secret, retire env.toSecretEnvironment (trimSpace name) actor reason env.clock db =
      .ok (r.1, secret) := by
  obtain ⟨_, _, h⟩ := bind_eq_ok_iff.mp h
  obtain ⟨_, _, h⟩ := bind_eq_ok_iff.mp h
  obtain ⟨actor, _, h⟩ := bind_eq_ok_iff.mp h
  obtain ⟨⟨_, secret⟩, hr, h⟩ := bind_eq_ok_iff.mp h
  cases h
  exact ⟨actor, secret, mapError_eq_ok.mp hr⟩

theorem checkExisting_eq_ok :
    checkExisting operation existing = .ok () ↔
      match existing with
      | none => operation = .create
      | some secret => operation = .rotate ∧ secret.retiredAt = none := by
  cases existing <;> cases operation <;>
    simp [checkExisting, bind_eq_ok_iff, HTTPError.check_eq_ok]

theorem checkValue_eq_ok :
    checkValue req env = .ok () ↔ ¬(req.Generates ∧ req.value ≠ "") ∧ req.plaintext env ≠ [] ∧
      (req.plaintext env).length ≤ 64 * 1024 := by
  simp [checkValue, bind_eq_ok_iff, HTTPError.check_eq_ok]

theorem checkValue_congr (h : checkValue req env = .ok ()) (env' : AdminEnvironment) :
    checkValue req env' = .ok () := by
  rw [checkValue_eq_ok] at h ⊢
  refine ⟨h.left, ?_⟩
  by_cases hg : req.Generates
  case pos =>
    simpa only [ManagedSecretWriteRequest.plaintext, if_pos hg] using (generated_accepted env').right
  case neg => simpa only [ManagedSecretWriteRequest.plaintext, if_neg hg] using h.right

namespace SecretWrites

open SecretHistory

theorem step_reaches (h : Step cipher hash db db') : db.Reaches hash db' := by
  cases h
  case request request caller env hf =>
    cases request
    case write req =>
      rw [after]
      cases hw : writeAdminManagedSecret cipher hash env caller req db
      case error => exact .refl
      case ok r  =>
        obtain ⟨operation, actor, encrypted, _, _, _, _, _, _, _, _, _, hp, _⟩ :=
          writeAdminManagedSecret_eq_ok.mp hw
        have h : (SecretCall.put (req.input operation actor encrypted)).perform hash
            env.toSecretEnvironment db = .ok r.1 := bind_eq_ok_iff.mpr ⟨_, hp, rfl⟩
        exact .single (.ok hf h)
    case retire name reason =>
      rw [after]
      cases hr : retireAdminManagedSecret env caller name reason db
      case error => exact .refl
      case ok r =>
        obtain ⟨actor, secret, hp⟩ := retireAdminManagedSecret_put hr
        have h : (SecretCall.retire (trimSpace name) actor reason env.clock).perform hash
            env.toSecretEnvironment db = .ok r.1 := bind_eq_ok_iff.mpr ⟨_, hp, rfl⟩
        exact .single (.ok hf h)

theorem reaches_service (h : Reaches cipher hash db db') : db.Reaches hash db' := by
  induction h
  case refl => exact .refl
  case tail _ hs hi => exact hi.trans (step_reaches hs)

theorem reaches_after (hw : writeAdminManagedSecret cipher hash env caller req db = .ok (db', response))
    (hf : env.Fresh db) : Reaches cipher hash db db' := by
  have h : Step cipher hash db (after cipher hash env caller db (.write req)) :=
    .request (.write req) caller hf
  rw [after, hw] at h
  exact .single h

theorem priorWrite_eq_none_iff (hc : Consistent db) :
    priorWrite db name requestID = none ↔ Unused db name requestID := by
  constructor
  case mp =>
    rintro hw hr row hm rfl rfl hs
    rw [priorWrite_of_mem hc hm hr hs] at hw
    contradiction
  case mpr =>
    intro hu
    cases hw : priorWrite db name requestID
    case none => rfl
    case some row =>
      obtain ⟨hr, hm, hn, hreq, hs⟩ := priorWrite_eq_some hw
      exact absurd hs (hu hr row hm hn hreq)

section Repeat

variable {db₁ db₂ : ManagedSecretDB}
  (hw : writeAdminManagedSecret cipher hash env caller req db = .ok (db₁, response))
  (hr : trimSpace req.requestID ≠ "") (he : Extends db₁ db₂) (hc₂ : Consistent db₂)
  {c : ManagedSecretCiphertext}
  (henc : cipher.encrypt (trimSpace req.name) (req.plaintext env') env'.nonce = .ok c)

theorem found_of_repeat (hc : Consistent db₂) (hs : secret ∈ db₂.secrets)
    (hn : secret.name = trimSpace req.name) :
    (get (trimSpace req.name) db₂).toOption = some secret := by
  rw [← hn, get_eq_ok.mpr ⟨hc.named secret hs, hs⟩]
  rfl

include hw he hc₂ in
theorem allowed_of_repeat (h : writeAdminManagedSecret cipher hash env' caller req db₂ = .ok r) :
    req.parsedOperation = some .rotate ∧
      ∃ secret ∈ db₂.secrets, secret.name = trimSpace req.name ∧ secret.retiredAt = none := by
  obtain ⟨_, _, _, _, _, _, _, _, _, _, _, _, hp, _⟩ := writeAdminManagedSecret_eq_ok.mp hw
  obtain ⟨row, hm, hrow, -, -⟩ := put_logged hp
  obtain ⟨secret, hs, hn, -⟩ := hc₂.row row (he.audit row hm)
  have hn := hn.trans (Prod.mk.inj hrow).left
  obtain ⟨operation, _, _, _, _, -, ho, -, -, hx, -⟩ := writeAdminManagedSecret_eq_ok.mp h
  rw [found_of_repeat hc₂ hs hn, checkExisting_eq_ok] at hx
  obtain ⟨rfl, ha⟩ := hx
  exact ⟨ho, secret, hs, hn, ha⟩

include hw hr he hc₂ henc in
theorem repeat_of_allowed (ho : req.parsedOperation = some .rotate)
    (hs : secret ∈ db₂.secrets) (hn : secret.name = trimSpace req.name)
    (ha : secret.retiredAt = none) :
    ∃ response', writeAdminManagedSecret cipher hash env' caller req db₂ = .ok (db₂, response') ∧
      response'.version.version = response.version.version := by
  obtain ⟨operation, actor, encrypted, _, version, hv, ho', hactor, hreason, -, hvalue, -, hp, rfl⟩ :=
    writeAdminManagedSecret_eq_ok.mp hw
  obtain ⟨row, hm, hrow, hres, hver⟩ := put_logged hp
  have hvalue := checkValue_congr hvalue env'
  have hput : validatePut (req.input .rotate actor c) = .ok () := by
    obtain ⟨-, -, -, ha, hr⟩ := validatePut_eq_ok.mp (put_eq_ok.mp hp).left
    obtain ⟨hne, hle⟩ := cipher.sized henc (checkValue_eq_ok.mp hvalue).right.right
    exact validatePut_eq_ok.mpr ⟨hv, hne, hle, ha, hr⟩
  have hp' : put hash env'.toSecretEnvironment (req.input .rotate actor c) db₂ =
      .ok (db₂, secret, versionOfRow row secret) :=
    put_replayed hc₂ hs hn.symm hput rfl (he.audit row hm) hrow hr hres
  refine ⟨writeResponse req env' secret (versionOfRow row secret),
    writeAdminManagedSecret_eq_ok.mpr ⟨.rotate, actor, c, secret, _, hv, ho, hactor, hreason, ?_, hvalue,
      henc, hp', rfl⟩, hver⟩
  rw [found_of_repeat hc₂ hs hn, checkExisting_eq_ok]
  exact ⟨rfl, ha⟩

end Repeat

theorem truthful_iff (hc : Consistent db)
    (hw : writeAdminManagedSecret cipher hash env caller req db = .ok (db', response))
    (hg : response.generatedValue ≠ "") (hf : FreshValue cipher db (trimSpace req.name) env) :
    Truthful cipher db' (trimSpace req.name) response ↔
      Unused db (trimSpace req.name) (trimSpace req.requestID) := by
  obtain ⟨operation, actor, encrypted, secret, version, -, -, -, -, -, -, henc, hp, rfl⟩ :=
    writeAdminManagedSecret_eq_ok.mp hw
  have hgen : req.Generates := by
    by_contra h
    exact hg (if_neg h)
  have hvalue : (writeResponse req env secret version).generatedValue = generateSecretValue env.random :=
    if_pos hgen
  have hplain : req.plaintext env = bytes (generateSecretValue env.random) := if_pos hgen
  rw [Truthful, hvalue, ← priorWrite_eq_none_iff hc]
  obtain ⟨-, -, p, -, h⟩ := put_eq_ok.mp hp
  split at h
  case h_1 row hprior =>
    -- Nothing was written, and the value is not among those that are stored.
    obtain ⟨_, _, h⟩ := h
    cases h
    refine iff_of_false ?_ (hprior ▸ nofun)
    rintro ⟨rec, hm, hn, -, hd⟩
    exact hf rec hm hn hd
  case h_2 hprior =>
    obtain ⟨-, -, h⟩ := write_eq_ok.mp h
    cases h
    refine iff_of_true ⟨_, ObjectStore.mem_put.mpr (.inl rfl), rfl, rfl, ?_⟩ hprior
    exact hplain ▸ cipher.decrypts henc

-- A repeated request has the same answer and no effect exactly if it is a rotation of a secret that
-- is not retired. A generated value is that of the version in the response exactly if the request
-- id is new.
theorem writes_idempotent_truthful_iff (cipher : ManagedSecretCipher) (hash : Bytes → String)
    {db db' : ManagedSecretDB} (h : Reaches cipher hash {} db) {env : AdminEnvironment}
    (hf : env.Fresh db) {caller : Option Caller} {req : ManagedSecretWriteRequest}
    {response : ManagedSecretWriteResponse}
    (hw : writeAdminManagedSecret cipher hash env caller req db = .ok (db', response)) :
    (trimSpace req.requestID ≠ "" → ∀ db₂, Reaches cipher hash db' db₂ →
      ∀ env' : AdminEnvironment,
        (cipher.encrypt (trimSpace req.name) (req.plaintext env') env'.nonce).isOk →
        ((∃ response', writeAdminManagedSecret cipher hash env' caller req db₂ = .ok (db₂, response') ∧
            response'.version.version = response.version.version) ↔
          req.parsedOperation = some .rotate ∧
            ∃ secret ∈ db₂.secrets, secret.name = trimSpace req.name ∧ secret.retiredAt = none)) ∧
    (response.generatedValue ≠ "" → FreshValue cipher db (trimSpace req.name) env →
      (Truthful cipher db' (trimSpace req.name) response ↔
        Unused db (trimSpace req.name) (trimSpace req.requestID))) := by
  have hc := reaches_consistent .empty (reaches_service h)
  have hc' := reaches_consistent hc (reaches_service (reaches_after hw hf))
  refine ⟨fun hr db₂ h₂ env' henc => ?_, truthful_iff hc hw⟩
  have hc₂ := reaches_consistent hc' (reaches_service h₂)
  have he := reaches_extends hc' (reaches_service h₂)
  constructor
  case mp =>
    rintro ⟨_, h, -⟩
    exact allowed_of_repeat hw he hc₂ h
  case mpr =>
    rintro ⟨ho, secret, hs, hn, ha⟩
    cases hok : cipher.encrypt (trimSpace req.name) (req.plaintext env') env'.nonce
    case error => simp [hok, Except.isOk, Except.toBool] at henc
    case ok    => exact repeat_of_allowed hw hr he hc₂ hok ho hs hn ha

def zeroCipher : ManagedSecretCipher where
  encrypt _ plaintext _ := .ok ⟨0 :: plaintext, "key", "1"⟩
  decrypt _ ciphertext  := ciphertext.tail?
  decrypts h := by
    cases h
    rfl
  sized h hl := by
    cases h
    refine ⟨List.cons_ne_nil _ _, ?_⟩
    rw [List.length_cons]
    omega

def sha256 (ciphertext : Bytes) : String :=
  if ciphertext = 0 :: bytes "one" then
    "d0d7360ab79f58ab1e1e3fe64ad77e2ea0bc07e36b5f46ed2223edd9298df9e9"
  else
    "aeb673f881a0a10acbf3db9873b100937d1de2bb40c52c7583918963e24a49ab"

def alice : Option Caller :=
  some { userID := "alice" }

-- The time, the audit id and the byte that is drawn over and over.
def surroundings (clock : Int) (auditID : String) (byte : UInt8) : AdminEnvironment where
  clock := clock
  auditID := auditID
  random := List.replicate 48 byte
  nonce := 0
  drawn := List.length_replicate

def creation : ManagedSecretWriteRequest where
  name := "token"
  operation := "create"
  ownerApp := "demo"
  reason := "initial"
  requestID := "request-1"
  value := "one"

def rotation : ManagedSecretWriteRequest where
  name := "token"
  operation := "rotate"
  reason := "rotation"
  requestID := "request-2"
  generate := some true

def created : ManagedSecretDB :=
  (write creation).after zeroCipher sha256
    (surroundings second "audit-1" 0) alice {}

def rotated : ManagedSecretDB :=
  (write rotation).after zeroCipher sha256
    (surroundings (2 * second) "audit-2" 0) alice created

theorem reaches_created : Reaches zeroCipher sha256 {} created :=
  .single (.request _ _ rfl)

theorem fresh_rotation : (surroundings (2 * second) "audit-2" 0).Fresh created := by
  rw [SecretEnvironment.Fresh]
  decide +kernel

theorem freshValue_of_getAll (h : ∀ rec ∈ db.versions.getAll, cipher.decrypt name rec.ciphertext ≠
      some (bytes (generateSecretValue env.random))) : FreshValue cipher db name env :=
  fun rec hm _ => h rec (ObjectStore.mem_getAll.mpr hm)

-- A rotation returns the value that it has stored, and can be repeated at once.
theorem writes_idempotent_truthful_demo :
    ∃ db response, Reaches zeroCipher sha256 {} created ∧
      writeAdminManagedSecret zeroCipher sha256 (surroundings (2 * second) "audit-2" 0) alice
        rotation created = .ok (db, response) ∧ Truthful zeroCipher db "token" response ∧
      ∃ response', writeAdminManagedSecret zeroCipher sha256
          (surroundings (3 * second) "audit-3" 1) alice rotation db = .ok (db, response') ∧
        response'.version.version = response.version.version := by
  have hn : trimSpace rotation.name = "token" := by decide +kernel
  have hreq : trimSpace rotation.requestID = "request-2" := by decide +kernel
  have he : (writeAdminManagedSecret zeroCipher sha256 (surroundings (2 * second) "audit-2" 0) alice
      rotation created).toOption.map (fun r => (decide (r.2.generatedValue ≠ ""),
        r.1.secrets.getAll.any fun s => s.name = "token" ∧ s.retiredAt = none)) = some (true, true) := by
    decide +kernel
  obtain ⟨⟨db, response⟩, hw, hr⟩ := Except.eq_ok_of_toOption he
  obtain ⟨hg, hs⟩ := Prod.mk.inj hr
  obtain ⟨secret, hm, hs⟩ := List.any_eq_true.mp hs
  have hs := of_decide_eq_true hs
  have hu : ∀ row ∈ created.audit.getAll, row.requestID ≠ "request-2" := by decide +kernel
  have h := writes_idempotent_truthful_iff zeroCipher sha256 reaches_created fresh_rotation hw
  rw [hn, hreq] at h
  refine ⟨db, response, reaches_created, hw, ?_, ?_⟩
  · refine (h.right (of_decide_eq_true hg) (freshValue_of_getAll (by decide +kernel))).mpr ?_
    exact fun _ row hm _ hr => absurd hr (hu row (ObjectStore.mem_getAll.mpr hm))
  · exact (h.left (by decide) db .refl (surroundings (3 * second) "audit-3" 1) rfl).mpr
      ⟨by decide +kernel, secret, ObjectStore.mem_getAll.mp hm, hs⟩

-- A creation cannot be repeated. A repeated rotation returns not the value of the version.
theorem repeated_writes_fail :
    Reaches zeroCipher sha256 {} rotated ∧
    (writeAdminManagedSecret zeroCipher sha256 (surroundings second "audit-1" 0) alice creation
      {}).isOk ∧
    (writeAdminManagedSecret zeroCipher sha256 (surroundings (2 * second) "audit-2" 0) alice creation
      created).toOption.isNone ∧
    ∃ db response, writeAdminManagedSecret zeroCipher sha256 (surroundings (3 * second) "audit-3" 1)
        alice rotation rotated = .ok (db, response) ∧ response.generatedValue ≠ "" ∧
      FreshValue zeroCipher rotated "token" (surroundings (3 * second) "audit-3" 1) ∧
      ¬Truthful zeroCipher db "token" response := by
  have hn : trimSpace rotation.name = "token" := by decide +kernel
  have hreq : trimSpace rotation.requestID = "request-2" := by decide +kernel
  have hrot : Reaches zeroCipher sha256 {} rotated := reaches_created.tail (.request _ _ fresh_rotation)
  have hc := reaches_consistent .empty (reaches_service hrot)
  have he : (writeAdminManagedSecret zeroCipher sha256 (surroundings (3 * second) "audit-3" 1) alice
      rotation rotated).toOption.map (fun r => decide (r.2.generatedValue ≠ "")) = some true := by
    decide +kernel
  obtain ⟨⟨db, response⟩, hw, hg⟩ := Except.eq_ok_of_toOption he
  have hg := of_decide_eq_true hg
  have hf : FreshValue zeroCipher rotated "token" (surroundings (3 * second) "audit-3" 1) :=
    freshValue_of_getAll (by decide +kernel)
  have hu : ∃ row ∈ rotated.audit.getAll, row.name = "token" ∧ row.requestID = "request-2" ∧
      row.result = "success" := by
    decide +kernel
  have hiff := truthful_iff hc hw hg (hn ▸ hf)
  rw [hn, hreq] at hiff
  refine ⟨hrot, by decide +kernel, by decide +kernel, db, response, hw, hg, hf, fun h => ?_⟩
  obtain ⟨row, hm, hname, hr, hs⟩ := hu
  exact hiff.mp h (by decide) row (ObjectStore.mem_getAll.mp hm) hname hr hs

end SecretWrites
end Server
