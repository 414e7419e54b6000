import GestaltModel.Coredata.ManagedSubjects

namespace Coredata

open Identity (parseSubjectID)
open ManagedSubjectService
open ObjectStore (get_eq_ok id_of_lookup lookup_put_of_ne lookup_put_self mem_iff mem_of_lookup)
open Text (trimSpace)
open ManagedSubjectsSchema (byKindDeleted notNull)

-- What holds of every record that a call writes.
structure ManagedSubjectRecord.Regular (rec : ManagedSubjectRecord) : Prop where
  named : rec.subjectID = rec.id
  service : (parseSubjectID rec.id).map Prod.fst = some managedSubjectKindServiceAccount
  trimmed : trimSpace rec.id = rec.id
  kind : ∀ kind ∈ rec.kind, kind = managedSubjectKindServiceAccount
  deleted : rec.deleted = rec.deletedAt.isSome

-- A record that is listed if and only if it can be read.
def ManagedSubjectRecord.Sound (rec : ManagedSubjectRecord) : Prop :=
  rec.kind ≠ none ∧ rec.deletedAt ≠ some 0

namespace ManagedSubjectService

variable {store : ManagedSubjectStore}

@[simp]
theorem send_eq_ok {x : Except Failure α} : send lost x = .ok a ↔ lost = none ∧ x = .ok a := by
  cases lost <;> simp [send]

@[simp]
theorem translate_eq_ok {x : Except Failure α} :
    translate known error context x = .ok a ↔ x = .ok a :=
  Except.mapError_eq_ok

theorem getManagedSubject_eq_ok :
    getManagedSubject store subjectID = .ok subject ↔
      ∃ rec, store.lookup (trimSpace subjectID) = some rec ∧
        recTimePtr rec.deletedAt = none ∧ recordToManagedSubject rec = subject := by
  simp only [getManagedSubject, Except.bind_eq_ok_iff, translate_eq_ok, get_eq_ok,
    ensure_eq_ok, pure, Except.pure, Except.ok.injEq, exists_const]
  simp only [recordToManagedSubject]

theorem mem_of_listManagedSubjects (h : listManagedSubjects store "" = .ok subjects) :
    subject ∈ subjects ↔ ∃ rec ∈ store, rec.kind = some managedSubjectKindServiceAccount ∧
      rec.deleted = false ∧ recordToManagedSubject rec = subject := by
  simp only [listManagedSubjects, Text.trimSpace_empty, if_true, Except.bind_eq_ok_iff, pure,
    Except.pure, Except.ok.injEq] at h
  obtain ⟨-, -, rfl⟩ := h
  simp only [List.mem_map, List.mem_filter, ObjectStore.mem_getAll, ← mem_iff,
    decide_eq_true_eq, and_assoc]
  refine exists_congr fun rec => and_congr_right fun _ => and_iff_right_of_imp fun hk => ?_
  simp [byKindDeleted, ManagedSubjectRecord.has, hk.left]

theorem createManagedSubject_eq_ok :
    (∃ subject', createManagedSubject lost now store subject = .ok (store', subject')) ↔
      trimSpace subject.subjectID ≠ "" ∧
      (parseSubjectID (trimSpace subject.subjectID)).map Prod.fst =
        some managedSubjectKindServiceAccount ∧
      lost = none ∧ store.lookup (trimSpace subject.subjectID) = none ∧
      store.put (createdRecord now subject) = store' := by
  simp only [createManagedSubject, Except.bind_eq_ok_iff, require_eq_ok, translate_eq_ok, send_eq_ok,
    ObjectStore.add_eq_ok, pure, Except.pure, Except.ok.injEq, exists_const, and_assoc,
    exists_and_left, exists_eq_left, exists_eq', and_true, Record.id, createdRecord, Prod.mk.injEq]

theorem updateManagedSubject_eq_ok :
    (∃ subject, updateManagedSubject lost now store subjectID update =
        .ok (store', subject)) ↔
      trimSpace subjectID ≠ "" ∧ ∃ subject,
        getManagedSubject store subjectID = .ok subject ∧ ∃ subject',
          update subject = .ok subject' ∧ lost = none ∧
            store.put (updatedRecord now subject') = store' := by
  simp only [updateManagedSubject, Except.bind_eq_ok_iff, require_eq_ok, Except.context_eq_ok,
    send_eq_ok, pure, Except.pure, Except.ok.injEq, exists_const, and_assoc, exists_and_left,
    exists_eq_left', Prod.mk.injEq]
  grind

theorem deleteManagedSubject_eq_ok :
    (∃ subject, deleteManagedSubject lost now store subjectID = .ok (store', subject)) ↔
      ∃ rec, store.lookup (trimSpace subjectID) = some rec ∧
        if recTimePtr rec.deletedAt = none then lost = none ∧ store.put
            (managedSubjectToRecord (deletedSubject now (recordToManagedSubject rec))) = store'
        else store = store' := by
  simp only [deleteManagedSubject, Except.bind_eq_ok_iff, translate_eq_ok, get_eq_ok]
  rw [exists_comm]
  refine exists_congr fun rec => ?_
  have hd : (recordToManagedSubject rec).deletedAt = recTimePtr rec.deletedAt := rfl
  rw [exists_and_left, hd]
  by_cases h : recTimePtr rec.deletedAt = none
  case pos => simp [h, Except.bind_eq_ok_iff, pure, Except.pure, and_assoc]
  case neg => simp [h, pure, Except.pure]

theorem subjectID_ne_empty
    (h : (parseSubjectID subjectID).map Prod.fst = some managedSubjectKindServiceAccount) :
    subjectID ≠ "" := by
  rintro rfl
  simp [parseSubjectID, Text.trimSpace_empty, Text.cut] at h

-- What is put for a subject that was read from the record `rec`.
theorem updatedRecord_regular {rec : ManagedSubjectRecord} (hr : rec.Regular)
    (hs : subject.subjectID = rec.subjectID) (now : Int) :
    (updatedRecord now subject).Regular ∧ Record.id (updatedRecord now subject) = Record.id rec ∧
      ((updatedRecord now subject).Sound ↔ subject.deletedAt ≠ some 0) := by
  have hid : (updatedRecord now subject).id = rec.id := by
    rw [← hr.trimmed, ← hr.named, ← hs]
    rfl
  have hk : (updatedRecord now subject).kind = some managedSubjectKindServiceAccount := by
    simp [updatedRecord, managedSubjectToRecord, hs, hr.named, hr.service]
  refine ⟨⟨rfl, hid ▸ hr.service, hid ▸ hr.trimmed, by simp [hk], rfl⟩, hid, ?_⟩
  simp [ManagedSubjectRecord.Sound, updatedRecord, managedSubjectToRecord]

end ManagedSubjectService

namespace ManagedSubjectCall

variable {store : ManagedSubjectStore} {call : ManagedSubjectCall} {subjectID : String} {now : Int}
  {lost : Option Failure}

theorem after_of_ok (h : ∃ subject, call.perform store = .ok (store', subject)) :
    call.after store = store' := by
  obtain ⟨subject, h⟩ := h
  rw [after, h]

theorem after_of_not_ok (h : ∀ store', ¬∃ subject, call.perform store = .ok (store', subject)) :
    call.after store = store := by
  rw [after]
  split
  case h_1 hr => exact absurd ⟨_, hr⟩ (h _)
  case h_2 => rfl

-- What a call does that is accepted.
structure Puts (call : ManagedSubjectCall) (store : ManagedSubjectStore)
    (rec : ManagedSubjectRecord) : Prop where
  after : call.after store = store.put rec
  id : Record.id rec = call.subjectID
  regular : rec.Regular
  sound : rec.Sound ↔ ¬call.Flawed store
  deleted : ∀ subjectID, call.operation = .delete subjectID → recTimePtr rec.deletedAt ≠ none

def Handled (call : ManagedSubjectCall) (store : ManagedSubjectStore) : Prop :=
  (call.Accepted store ∧ ∃ rec, call.Puts store rec) ∨
  (¬call.Accepted store ∧ call.after store = store)

theorem create_handled : Handled ⟨.create subject, now, lost⟩ store := by
  by_cases ha : Accepted ⟨.create subject, now, lost⟩ store
  case neg =>
    refine .inr ⟨ha, after_of_not_ok fun _ hr => ha ?_⟩
    obtain ⟨-, hk, hl, hn, -⟩ := createManagedSubject_eq_ok.mp hr
    exact ⟨hl, hn, hk⟩
  case pos =>
    refine .inl ⟨ha, createdRecord now subject, ?_⟩
    obtain ⟨hl, hn, hk⟩ := ha
    constructor
    case after =>
      exact after_of_ok (createManagedSubject_eq_ok.mpr ⟨subjectID_ne_empty hk, hk, hl, hn, rfl⟩)
    case id      => rfl
    case regular => exact ⟨rfl, hk, Text.trimSpace_trimSpace _, by simp [createdRecord], rfl⟩
    case sound   => simp [ManagedSubjectRecord.Sound, createdRecord, Flawed]
    case deleted => simp

variable (hs : ∀ rec ∈ store, rec.Regular)
include hs

theorem update_handled
    (hk : ∀ subject subject', update subject = .ok subject' → subject'.subjectID = subject.subjectID) :
    Handled ⟨.update subjectID update, now, lost⟩ store := by
  by_cases ha : Accepted ⟨.update subjectID update, now, lost⟩ store
  case neg =>
    refine .inr ⟨ha, after_of_not_ok fun _ hr => ha ?_⟩
    obtain ⟨-, subject, hs, subject', hu, hl, -⟩ := updateManagedSubject_eq_ok.mp hr
    obtain ⟨rec, hm, hd, rfl⟩ := getManagedSubject_eq_ok.mp hs
    exact ⟨hl, rec, hm, hd, subject', hu⟩
  case pos =>
    have ha' := ha
    obtain ⟨hl, rec, hm, hd, subject', hu⟩ := ha
    have hr := hs rec (mem_of_lookup hm)
    have hid : rec.id = trimSpace subjectID := id_of_lookup hm
    obtain ⟨hr', hid', hw⟩ := updatedRecord_regular hr (hk _ _ hu) now
    refine .inl ⟨ha', updatedRecord now subject', ?_⟩
    constructor
    case after =>
      exact after_of_ok (updateManagedSubject_eq_ok.mpr ⟨hid ▸ subjectID_ne_empty hr.service, _,
        getManagedSubject_eq_ok.mpr ⟨rec, hm, hd, rfl⟩, subject', hu, hl, rfl⟩)
    case id      => exact hid'.trans hid
    case regular => exact hr'
    case deleted => simp
    case sound   =>
      rw [hw, Ne, not_iff_not, Flawed]
      constructor
      case mp  => exact fun h => ⟨rec, subject', hm, hu, h⟩
      case mpr =>
        rintro ⟨_, _, hm', hu', h⟩
        cases hm.symm.trans hm'
        cases hu.symm.trans hu'
        exact h

theorem delete_handled (ht : Time.truncate Time.second now ≠ 0) :
    Handled ⟨.delete subjectID, now, lost⟩ store := by
  by_cases ha : Accepted ⟨.delete subjectID, now, lost⟩ store
  case neg =>
    refine .inr ⟨ha, ?_⟩
    rw [after]
    split
    case h_2 => rfl
    case h_1 hr =>
      obtain ⟨rec, hm, hw⟩ := deleteManagedSubject_eq_ok.mp ⟨_, hr⟩
      split at hw
      case isTrue hd => exact absurd ⟨hw.left, rec, hm, hd⟩ ha
      case isFalse   => exact hw.symm
  case pos =>
    have ha' := ha
    obtain ⟨hl, rec, hm, hd⟩ := ha
    obtain ⟨hr', hid', hw⟩ := updatedRecord_regular (hs rec (mem_of_lookup hm))
      (show (deletedSubject now (recordToManagedSubject rec)).subjectID = rec.subjectID from rfl) now
    refine .inl ⟨ha', updatedRecord now (deletedSubject now (recordToManagedSubject rec)), ?_⟩
    constructor
    case after =>
      refine after_of_ok (deleteManagedSubject_eq_ok.mpr ⟨rec, hm, ?_⟩)
      rw [if_pos hd]
      exact ⟨hl, rfl⟩
    case id      => exact hid'.trans (id_of_lookup hm)
    case regular => exact hr'
    case sound   => rw [hw]; simpa [Flawed, deletedSubject] using ht
    case deleted => simpa [updatedRecord, managedSubjectToRecord, deletedSubject, recTimePtr] using ht

theorem handled (hp : call.Proper) : call.Handled store := by
  obtain ⟨operation, now, lost⟩ := call
  cases operation
  case create => exact create_handled
  case update => exact update_handled hs (hp.right _ _ rfl)
  case delete => exact delete_handled hs hp.left

omit hs in
theorem not_accepted_of_deleted {rec : ManagedSubjectRecord}
    (h : store.lookup call.subjectID = some rec) (hd : recTimePtr rec.deletedAt ≠ none) :
    ¬call.Accepted store := by
  obtain ⟨operation, now, lost⟩ := call
  cases operation <;> simp_all [Accepted]

end ManagedSubjectCall

namespace ManagedSubjectCalls

theorem run_regular (hp : ∀ call ∈ calls, call.Proper) : ∀ rec ∈ run calls, rec.Regular := by
  induction calls
  case nil => exact fun rec h => absurd h (by simp [run, mem_iff])
  case cons call earlier hi =>
    obtain ⟨hc, he⟩ := List.forall_mem_cons.mp hp
    obtain ⟨-, rec, h⟩ | ⟨-, h⟩ := call.handled (hi he) hc
    case inl =>
      rw [run, h.after]
      intro rec' hm
      obtain rfl | ⟨hm, -⟩ := ObjectStore.mem_put.mp hm
      case inl => exact h.regular
      case inr => exact hi he rec' hm
    case inr => rw [run, h]; exact hi he

-- The last accepted call for a subject decides whether its record is sound.
theorem sound_iff (hp : ∀ call ∈ calls, call.Proper) (id : String) :
    (∀ rec, (run calls).lookup id = some rec → rec.Sound) ↔ ¬LastFlawed id calls := by
  induction calls
  case nil => simp [run, LastFlawed]
  case cons call earlier hi =>
    obtain ⟨hc, he⟩ := List.forall_mem_cons.mp hp
    obtain ⟨ha, rec, h⟩ | ⟨ha, h⟩ := call.handled (run_regular he) hc
    case inr => simp [run, h, LastFlawed, ha, hi he]
    case inl =>
      rw [run, h.after]
      by_cases hid : call.subjectID = id
      case pos =>
        subst hid
        have hl : ((run earlier).put rec).lookup call.subjectID = some rec :=
          h.id ▸ lookup_put_self
        simp [hl, LastFlawed, ha, h.sound]
      case neg =>
        rw [lookup_put_of_ne (fun e => hid (h.id ▸ e.symm)), hi he]
        simp [LastFlawed, hid]

theorem deleted_stays {later : ManagedSubjectCalls} (hp : ∀ call ∈ later ++ calls, call.Proper)
    (h : (run calls).lookup subjectID = some rec) (hd : recTimePtr rec.deletedAt ≠ none) :
    (run (later ++ calls)).lookup subjectID = some rec := by
  induction later
  case nil => exact h
  case cons call later hi =>
    rw [List.cons_append] at hp ⊢
    obtain ⟨hc, he⟩ := List.forall_mem_cons.mp hp
    specialize hi he
    obtain ⟨ha, rec', hw⟩ | ⟨-, hw⟩ := call.handled (run_regular he) hc
    case inr => rwa [run, hw]
    case inl =>
      rw [run, hw.after, lookup_put_of_ne, hi]
      rw [hw.id]
      rintro rfl
      exact ManagedSubjectCall.not_accepted_of_deleted hi hd ha

theorem deleted_of_perform (hp : ∀ call' ∈ call :: earlier, call'.Proper)
    (ho : call.operation = .delete subjectID) (h : call.perform (run earlier) = .ok result) :
    ∃ rec, (run (call :: earlier)).lookup (trimSpace subjectID) = some rec ∧
      recTimePtr rec.deletedAt ≠ none := by
  obtain ⟨hc, he⟩ := List.forall_mem_cons.mp hp
  have hid : call.subjectID = trimSpace subjectID := by rw [ManagedSubjectCall.subjectID, ho]
  rw [ManagedSubjectCall.perform, ho] at h
  obtain ⟨rec, hm, hd⟩ := deleteManagedSubject_eq_ok.mp ⟨result.2, h⟩
  obtain ⟨-, rec', hw⟩ | ⟨hn, hw⟩ := call.handled (run_regular he) hc
  case inl =>
    refine ⟨rec', ?_, hw.deleted subjectID ho⟩
    rw [run, hw.after, ← hid, ← hw.id, lookup_put_self]
  case inr =>
    rw [run, hw]
    refine ⟨rec, hm, fun hz => hn ?_⟩
    rw [if_pos hz] at hd
    rw [ManagedSubjectCall.Accepted, ho, hid]
    exact ⟨hd.left, rec, hm, hz⟩

section Store

variable {store : ManagedSubjectStore} (hr : ∀ rec ∈ store, rec.Regular)
include hr

theorem eq_of_subjectID {rec rec' : ManagedSubjectRecord} (h : rec ∈ store) (h' : rec' ∈ store)
    (he : rec.subjectID = rec'.subjectID) : rec = rec' := by
  rw [(hr rec h).named, (hr rec' h').named] at he
  exact ObjectStore.eq_of_mem h h' he

theorem getManagedSubject_of_mem {rec : ManagedSubjectRecord} (h : rec ∈ store)
    (hd : recTimePtr rec.deletedAt = none) :
    getManagedSubject store rec.id = .ok (recordToManagedSubject rec) :=
  getManagedSubject_eq_ok.mpr ⟨rec, (hr rec h).trimmed.symm ▸ h, hd, rfl⟩

-- What is listed and what can be read agree if and only if all records are sound.
theorem listed_iff_sound :
    ((∀ rec ∈ store, notNull.all rec.has) ∧
      ∀ subject, (∃ subjects, listManagedSubjects store "" = .ok subjects ∧
        subject ∈ subjects) ↔ ∃ subjectID, getManagedSubject store subjectID = .ok subject) ↔
    ∀ rec ∈ store, rec.Sound := by
  have hn (rec : ManagedSubjectRecord) :
      notNull.all rec.has ↔ rec.kind ≠ none := by
    simp [notNull, ManagedSubjectRecord.has, Option.isSome_iff_ne_none]
  simp only [hn]
  constructor
  case mp =>
    rintro ⟨hk, hl⟩ rec hm
    refine ⟨hk rec hm, fun hz => ?_⟩
    have hg := getManagedSubject_of_mem hr hm (by simp [hz, recTimePtr])
    obtain ⟨subjects, hs, hm'⟩ := (hl _).mpr ⟨_, hg⟩
    obtain ⟨rec', hm', -, hd, he⟩ := (mem_of_listManagedSubjects hs).mp hm'
    rw [eq_of_subjectID hr hm' hm (congrArg (·.subjectID) he), (hr rec hm).deleted, hz] at hd
    contradiction
  case mpr =>
    intro h
    refine ⟨fun rec hm => (h rec hm).left, fun subject => ?_⟩
    constructor
    case mp =>
      rintro ⟨subjects, hs, hl⟩
      obtain ⟨rec, hm, -, hd, rfl⟩ := (mem_of_listManagedSubjects hs).mp hl
      refine ⟨_, getManagedSubject_of_mem hr hm ?_⟩
      rw [(hr rec hm).deleted, Option.isSome_eq_false_iff, Option.isNone_iff_eq_none] at hd
      rw [hd, recTimePtr, Option.filter_none]
    case mpr =>
      rintro ⟨subjectID, hg⟩
      obtain ⟨rec, hl, hd, rfl⟩ := getManagedSubject_eq_ok.mp hg
      have hm := mem_of_lookup hl
      obtain ⟨subjects, hs⟩ : ∃ subjects, listManagedSubjects store "" = .ok subjects := by
        simp [listManagedSubjects, Text.trimSpace_empty, Except.bind_eq_ok_iff, pure, Except.pure]
      refine ⟨subjects, hs, (mem_of_listManagedSubjects hs).mpr ⟨rec, hm, ?_, ?_, rfl⟩⟩
      · obtain ⟨kind, hk⟩ := Option.ne_none_iff_exists'.mp (h rec hm).left
        rw [hk, (hr rec hm).kind kind hk]
      · have hz := (h rec hm).right
        rw [(hr rec hm).deleted]
        cases hd' : rec.deletedAt <;> simp_all [recTimePtr]

theorem not_returned_of_deleted {rec : ManagedSubjectRecord}
    (hl : store.lookup (trimSpace subjectID) = some rec) (hd : recTimePtr rec.deletedAt ≠ none) :
    (∀ subject, getManagedSubject store subjectID ≠ .ok subject) ∧
    ∀ subjects, listManagedSubjects store "" = .ok subjects →
      ∀ subject ∈ subjects, subject.subjectID ≠ trimSpace subjectID := by
  constructor
  case left =>
    intro subject hg
    obtain ⟨rec', hl', hd', -⟩ := getManagedSubject_eq_ok.mp hg
    cases hl.symm.trans hl'
    exact hd hd'
  case right =>
    intro subjects hs subject hl' he
    obtain ⟨rec', hm, -, hd', rfl⟩ := (mem_of_listManagedSubjects hs).mp hl'
    have hm' := mem_of_lookup hl
    have he : rec'.subjectID = rec.subjectID :=
      he.trans ((id_of_lookup hl).symm.trans (hr rec hm').named.symm)
    rw [eq_of_subjectID hr hm hm' he, (hr rec hm').deleted] at hd'
    cases hz : rec.deletedAt <;> simp_all [recTimePtr]

end Store

theorem subjects_stay_listed_iff (hp : ∀ call ∈ calls, call.Proper) :
    StayListed calls ↔ ∀ subjectID, ¬LastFlawed subjectID calls := by
  have hr := run_regular hp
  have hs : (∀ rec ∈ run calls, rec.Sound) ↔ ∀ subjectID, ¬LastFlawed subjectID calls := by
    simp only [← sound_iff hp]
    exact ⟨fun h _ rec hl => h rec (mem_of_lookup hl), fun h rec hm => h _ rec hm⟩
  rw [← hs, ← listed_iff_sound hr]
  constructor
  case mp => exact fun h => ⟨h.notNull, h.listed⟩
  case mpr =>
    intro h
    refine ⟨h.left, h.right, ?_⟩
    intro later call earlier subjectID result he ho hd
    subst he
    obtain ⟨rec, hl, hd⟩ := deleted_of_perform (fun c hc => hp c (List.mem_append_right _ hc)) ho hd
    exact not_returned_of_deleted hr (deleted_stays hp hl hd) hd

-- Of two service accounts, one is updated after its creation and the other one is deleted.
def demoCreate (subjectID : String) : ManagedSubjectCall :=
  ⟨.create { subjectID }, Time.day, none⟩

def demoUpdate : ManagedSubjectCall :=
  ⟨.update "service_account:a" fun subject => .ok { subject with displayName := "a" }, Time.day, none⟩

def demoDelete : ManagedSubjectCall :=
  ⟨.delete "service_account:b", Time.day, none⟩

def demoCreates : ManagedSubjectCalls :=
  [demoCreate "service_account:b", demoCreate "service_account:a"]

theorem demoCreate_proper (subjectID : String) : (demoCreate subjectID).Proper := by
  have ht : Time.truncate Time.second Time.day ≠ 0 := by decide
  refine ⟨ht, ?_⟩
  intro _ _ h
  cases h

theorem demo_proper : ∀ call ∈ demoDelete :: demoUpdate :: demoCreates, call.Proper := by
  simp only [demoCreates, List.forall_mem_cons, demoCreate_proper, true_and]
  refine ⟨⟨by decide, ?_⟩, ⟨by decide, ?_⟩, by simp⟩
  · intro _ _ h
    cases h
  · intro _ _ h _ _ hu
    cases h
    cases hu
    rfl

theorem demo_lookup : (run demoCreates).lookup demoUpdate.subjectID =
    some (createdRecord Time.day { subjectID := "service_account:a" }) := by
  decide +kernel

theorem subjects_stay_listed_demo : StayListed (demoDelete :: demoUpdate :: demoCreates) ∧
    (listManagedSubjects (run (demoDelete :: demoUpdate :: demoCreates)) "").toOption.map
      (·.map (·.subjectID)) = some ["service_account:a"] := by
  refine ⟨(subjects_stay_listed_iff demo_proper).mpr fun subjectID h => ?_, by decide +kernel⟩
  have hd : demoDelete.Accepted (run (demoUpdate :: demoCreates)) :=
    ⟨rfl, createdRecord Time.day { subjectID := "service_account:b" }, by decide +kernel, rfl⟩
  have hu : demoUpdate.Accepted (run demoCreates) := ⟨rfl, _, demo_lookup, rfl, _, rfl⟩
  obtain ⟨-, -, h⟩ | ⟨hb, ⟨-, -, rec, subject, hl, hs, hz⟩ | ⟨ha, h⟩⟩ := h
  · exact h
  · cases hl.symm.trans demo_lookup
    cases hs
    cases hz
  · obtain ⟨hid, -⟩ | ⟨-, ⟨hid, -⟩ | ⟨-, h⟩⟩ := h
    · exact hb ⟨hid ▸ rfl, hd⟩
    · exact ha ⟨hid ▸ rfl, hu⟩
    · exact h

theorem created_subject_not_listed :
    (demoCreate "service_account:a").Proper ∧ ¬StayListed [demoCreate "service_account:a"] ∧
    (∃ subject, getManagedSubject (run [demoCreate "service_account:a"]) "service_account:a" =
      .ok subject) ∧
    listManagedSubjects (run [demoCreate "service_account:a"]) "" = .ok [] := by
  have hl : (run [demoCreate "service_account:a"]).lookup "service_account:a" =
      some (createdRecord Time.day { subjectID := "service_account:a" }) := by decide +kernel
  refine ⟨demoCreate_proper _, fun h => ?_, ?_, by decide +kernel⟩
  · have := h.notNull _ (mem_of_lookup hl)
    contradiction
  · exact ⟨recordToManagedSubject (createdRecord Time.day { subjectID := "service_account:a" }),
      by decide +kernel⟩

end ManagedSubjectCalls

end Coredata
