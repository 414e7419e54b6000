import GestaltModel.Coredata.RemoteMemory
import GestaltModel.Coredata.Theorems.RemoteRegistrations
import GestaltModel.Interleaving.Theorems.RelyGuarantee

namespace Coredata.RemoteMemory

open Interleaving RemoteRegistrationService
open RemoteCall (commit execute)

variable {ι : Type} {i : ι} {s s' : RemoteMemory ι} {expendable : RemoteRegistration → Prop}
variable {reg : RemoteRegistration} {rows : List RemoteProvider} {id registrationID : String}
variable {c : RemoteCall} {now : Int}

theorem now_mono (h : s.clock ≤ s'.clock) : s.now ≤ s'.now :=
  Time.truncate_mono (by decide) h

theorem active_of_le (h : s.clock ≤ s'.clock) (ha : RegistrationActive reg s'.now) :
    RegistrationActive reg s.now :=
  lt_of_le_of_lt (now_mono h) ha

-- All registrations that the caller has found have expired, or may be removed for another reason.
def Judged (expendable : RemoteRegistration → Prop) (i : ι) (s : RemoteMemory ι) : Prop :=
  ∀ id reg, s.found i id = some reg → RegistrationActive reg s.now → expendable reg

theorem Judged.mono (h : Judged expendable i s) (hc : s.clock ≤ s'.clock)
    (hf : s'.found i = s.found i) : Judged expendable i s' := by
  intro id reg hl ha
  rw [hf] at hl
  exact h id reg hl (active_of_le hc ha)

theorem Judged.of_fresh (h : Judged expendable i s) (hf : s.Fresh i id)
    (hl : s.db.registrations.lookup id = some reg) (ha : RegistrationActive reg s.now) :
    expendable reg :=
  h id reg (hf reg hl) ha

variable [DecidableEq ι]

theorem exec_of_not_writes {db : RemoteDB} (h : ¬c.Writes) {clock : Int} :
    (c.exec clock db).1 = db := by
  cases c <;> first | rfl | exact absurd trivial h

theorem stored_of_exec {db : RemoteDB} {clock : Int}
    (h : (c.exec clock db).1.registrations.lookup id = some reg) :
    db.registrations.lookup id = some reg ∨ c.stores = some reg := by
  have put {reg' : RemoteRegistration}
      (h : (db.registrations.put reg').lookup id = some reg) :
      db.registrations.lookup id = some reg ∨ some reg' = some reg := by
    by_cases hi : id = reg'.id
    case pos =>
      subst hi
      exact .inr (ObjectStore.lookup_put_self.symm.trans h)
    case neg => exact .inl ((ObjectStore.lookup_put_of_ne hi).symm.trans h)
  cases c
  case deleteRegistration id' =>
    by_cases hi : id = id'
    case pos => simp [RemoteCall.exec, hi] at h
    case neg => exact .inl ((ObjectStore.lookup_erase_of_ne hi).symm.trans h)
  case commitReplacement g stored rows =>
    simp only [RemoteCall.exec] at h
    cases hc : db.commitReplacement g stored rows
    case error => exact .inl (by simpa [hc, commit] using h)
    case ok db' =>
      rw [hc, commit, RemoteDB.commitReplacement_eq_ok hc] at h
      exact put h
  case commitUpdate op g reg' =>
    simp only [RemoteCall.exec] at h
    cases hc : db.commitUpdate op g reg'
    case error => exact .inl (by simpa [hc, commit] using h)
    case ok db' =>
      rw [hc, commit, (RemoteDB.commitUpdate_eq_ok hc).right] at h
      exact put h
  all_goals exact .inl h

theorem Judged.done (h : Judged expendable i s) (hn : c.note s.db (s.found i) = s.found i) :
    Judged expendable i (c.execute i none s).1 := by
  intro id reg hf ha
  refine h id reg ?_ ha
  simpa [execute, hn] using hf

theorem Judged.update {found : Option RemoteRegistration} (h : Judged expendable i s)
    (hn : c.note s.db (s.found i) = Function.update (s.found i) id found)
    (hf : ∀ reg, found = some reg → RegistrationActive reg s.now → expendable reg) :
    Judged expendable i (c.execute i none s).1 := by
  intro id' reg hf' ha
  simp only [execute, hn, Function.update_self] at hf'
  by_cases hi : id' = id
  case pos => exact hf reg (by simpa [hi] using hf') ha
  case neg => exact h id' reg (by simpa [hi] using hf') ha

theorem execute_failed (hc : c.IsRequest) (f : Failure) :
    (c.execute i (some f) s).1.failed i = true := by
  simp [execute, hc]

def OnOk (Q : α → RemoteMemory ι → Prop) : Except Failure α → RemoteMemory ι → Prop
  | .ok a, s => Q a s
  | .error _, _ => True

section Rules

variable {rely guar : RemoteMemory ι → RemoteMemory ι → Prop}
variable {post : α → RemoteMemory ι → Prop} {Q : α → RemoteMemory ι → Prop}

abbrev RemoteSafe (i : ι) (rely guar : RemoteMemory ι → RemoteMemory ι → Prop)
    (post : α → RemoteMemory ι → Prop) (prog : RemoteProgram α) (s : RemoteMemory ι) : Prop :=
  Safe (remoteSemantics ι) RemoteCall.fresh (fun _ => True) i rely guar post prog s

theorem error_safe : RemoteSafe i rely guar (OnOk Q) (.ret (.error e)) s :=
  fun _ _ _ => trivial

theorem call_safe {k : c.Response → RemoteProgram α}
    (hg : ∀ s' o, rely s s' → c.fresh i s' → guar s' (c.execute i o s').1)
    (failed : ∀ s' f, rely s s' →
      RemoteSafe i rely guar post (k (c.fail f s'.clock)) (c.execute i (some f) s').1)
    (done : ∀ s', rely s s' →
      RemoteSafe i rely guar post (k (c.exec s'.clock s'.db).2) (c.execute i none s').1) :
    RemoteSafe i rely guar post (.call c k) s := by
  intro s' hr _ hf o
  refine ⟨trivial, hg s' o hr hf, ?_⟩
  cases o
  case none => exact done s' hr
  case some f => exact failed s' f hr

end Rules

-- A caller that removes only what it has judged, which the others let it keep.
structure Discipline (expendable : RemoteRegistration → Prop) (i : ι)
    (rely guar : RemoteMemory ι → RemoteMemory ι → Prop) : Prop where
  refl : ∀ s, rely s s
  clock : ∀ {s s'}, rely s s' → s.clock ≤ s'.clock
  found : ∀ {s s'}, rely s s' → s'.found i = s.found i
  read : ∀ {c : RemoteCall} {s} o, ¬c.Writes → guar s (c.execute i o s).1
  deleteProvider : ∀ {id s} o, Judged expendable i s → s.FreshProvider i id →
    guar s ((RemoteCall.deleteProvider id).execute i o s).1
  deleteRegistration : ∀ {id s} o, Judged expendable i s → s.Fresh i id →
    guar s ((RemoteCall.deleteRegistration id).execute i o s).1

namespace Discipline

variable {rely guar : RemoteMemory ι → RemoteMemory ι → Prop}
variable {post : α → RemoteMemory ι → Prop}

variable (d : Discipline expendable i rely guar)
include d

theorem judged (hj : Judged expendable i s)
    (hr : rely s s') : Judged expendable i s' :=
  hj.mono (d.clock hr) (d.found hr)

theorem ret_safe (hj : Judged expendable i s) :
    RemoteSafe i rely guar (OnOk fun _ => Judged expendable i) (.ret (.ok a)) s :=
  fun _ hr _ => d.judged hj hr

theorem read_safe {k : c.Response → RemoteProgram α}
    (hw : ¬c.Writes)
    (failed : ∀ s' f, rely s s' →
      RemoteSafe i rely guar post (k (c.fail f s'.clock)) (c.execute i (some f) s').1)
    (done : ∀ s', rely s s' →
      RemoteSafe i rely guar post (k (c.exec s'.clock s'.db).2) (c.execute i none s').1) :
    RemoteSafe i rely guar post (.call c k) s :=
  call_safe (fun _ o _ _ => d.read o hw) failed done

theorem now_safe {k : Int → RemoteProgram α}
    (h : ∀ s', rely s s' → RemoteSafe i rely guar post (k s'.clock) s') :
    RemoteSafe i rely guar post (.call .now k) s := by
  refine d.read_safe (c := .now) id (fun s' _ hr => h s' hr) fun s' hr => ?_
  simpa [execute, RemoteCall.exec, RemoteCall.note, RemoteCall.Writes] using h s' hr

theorem deleteProviders_safe (hj : Judged expendable i s) :
    RemoteSafe i rely guar (OnOk fun _ => Judged expendable i) (deleteProviders rows) s := by
  induction rows generalizing s
  case nil => exact d.ret_safe hj
  case cons row rows ih =>
    rw [deleteProviders, request_bind]
    refine call_safe (fun s' o hr hf => ?_) (fun _ _ _ => error_safe) fun s' hr => ?_
    · exact d.deleteProvider o (d.judged hj hr) hf
    · exact ih ((d.judged hj hr).done rfl)

theorem deleteProvidersForRegistration_safe (hj : Judged expendable i s) :
    RemoteSafe i rely guar (OnOk fun _ => Judged expendable i)
      (deleteProvidersForRegistration registrationID) s := by
  rw [deleteProvidersForRegistration, request_bind]
  refine d.read_safe (c := .providersByRegistration _) id (fun _ _ _ => error_safe) ?_
  exact fun s' hr => d.deleteProviders_safe ((d.judged hj hr).done rfl)

theorem deleteRegistration_safe (hj : Judged expendable i s) :
    RemoteSafe i rely guar (OnOk fun _ => Judged expendable i)
      (request (.deleteRegistration id)) s := by
  refine call_safe (fun s' o hr hf => ?_) (fun _ _ _ => error_safe) fun s' hr => ?_
  · exact d.deleteRegistration o (d.judged hj hr) hf
  · exact d.ret_safe ((d.judged hj hr).update rfl (by simp))

theorem sweep_safe (hj : Judged expendable i s) :
    RemoteSafe i rely guar (OnOk fun _ => Judged expendable i) (sweep registrationID) s :=
  .bind_ok d.refl (d.deleteProvidersForRegistration_safe hj) (fun _ _ => error_safe)
    fun _ _ _ hj => d.deleteRegistration_safe hj

theorem removeRegistrationWithGenerationCheck_safe (hj : Judged expendable i s) :
    RemoteSafe i rely guar (OnOk fun _ => Judged expendable i)
      (removeRegistrationWithGenerationCheck registrationID) s :=
  .bind_ok d.refl (d.deleteProvidersForRegistration_safe hj) (fun _ _ => error_safe)
    fun _ _ _ hj => d.deleteRegistration_safe hj

end Discipline
end Coredata.RemoteMemory
