import GestaltModel.Migrations.Provider

namespace Migrations

open Interleaving Interleaving.Program MigrationProgram

namespace Call

variable {keyOf : Record → String} {c : Call} {d d' : Database} {store : Option Store}

theorem Done.change_eq (h : c.Done keyOf store) : c.change keyOf store = store := by
  cases c
  case createObjectStore =>
    obtain ⟨s, rfl, -⟩ := h
    rfl
  case deleteObjectStore => exact h.symm
  case createIndex =>
    obtain ⟨s, rfl, hi⟩ := h
    have hm := Finmap.mem_of_lookup_eq_some hi
    rw [change, Option.map_some, Store.withIndex, if_pos hm]
  case deleteIndex =>
    obtain ⟨s, rfl, hi⟩ := h
    rw [change, Option.map_some, Store.withoutIndex, GoMap.erase_eq_self hi]
  case put =>
    obtain ⟨s, rfl, hr⟩ := h
    rw [change, Option.map_some, Store.withRow, GoMap.insert_eq_self hr]
  all_goals exact h.elim

theorem Changes.eq_self (h : c.Changes keyOf d d')
    (hc : ∀ name ∈ c.store, c.change keyOf (d.lookup name) = d.lookup name) : d' = d := by
  refine Finmap.ext_lookup fun name => ?_
  rw [h name]
  split
  case isTrue hn => exact hc name hn
  case isFalse   => rfl

theorem Changes.self (h : c.Changes keyOf d d') (hn : c.store = some name) :
    d'.lookup name = c.change keyOf (d.lookup name) := by
  rw [h name, if_pos hn]

theorem Changes.frame (h : c.Changes keyOf d d') (hn : c.store ≠ some name) :
    d'.lookup name = d.lookup name := by
  rw [h name, if_neg hn]

-- What a revision makes of the answer.
def judge (c : Call) : c.Response → Except DbError Unit
  | .ok _ => .ok ()
  | .error e => if c.ignores e.kind then .ok () else .error e

theorem judge_eq_ok {r : c.Response} : c.judge r = .ok () ↔ c.Accepts r := by
  cases r
  case ok    => exact ⟨fun _ => trivial, fun _ => rfl⟩
  case error => simp [judge, Accepts]

end Call

section Steps

variable {host : Host} {c : Call} {d d' d₁ d₂ : Database} {l : List Call}

theorem Host.Lawful.frame (hh : host.Lawful) (hn : c.store ≠ some name) :
    (host.handle c d).1.lookup name = d.lookup name := by
  cases hc : host.handle c d
  case mk d' r =>
    cases r
    case ok    => exact (hh.succeeded hc).frame hn
    case error => rw [hh.failed hc]

theorem Host.Lawful.read (hh : host.Lawful) (hc : ∀ store, c.change host.keyOf store = store) :
    (host.handle c d).1 = d := by
  cases he : host.handle c d
  case mk d' r =>
    cases r
    case ok    => exact (hh.succeeded he).eq_self fun _ _ => hc _
    case error => exact hh.failed he

theorem step_cases (host : Host) (c : Call) :
    (step host c = .ret (.ok ()) ∧ ∀ store, c.change host.keyOf store = store) ∨
    (∃ e, step host c = .ret (.error e)) ∨
    (∃ name, c.store = some name) ∧ step host c = .call c fun r => .ret (c.judge r) := by
  -- The errors that are ignored are those that the helpers of the source look for.
  have judged {c : Call} {f : c.Response → Except DbError Unit} (hok : ∀ r, f (.ok r) = .ok ())
      (he : ∀ kind text, f (.error ⟨kind, text⟩) = c.judge (.error ⟨kind, text⟩)) :
      (Program.call c fun r => .ret (f r)) = .call c fun r => .ret (c.judge r) := by
    refine congrArg (Program.call c) (funext fun r => congrArg Program.ret ?_)
    obtain ⟨kind, text⟩ | r := r
    · exact he kind text
    · exact hok r
  cases c
  case createObjectStore | deleteObjectStore | put =>
    exact .inr (.inr ⟨⟨_, rfl⟩, judged (fun _ => rfl) fun kind _ => by cases kind <;> rfl⟩)
  case createIndex | deleteIndex =>
    by_cases hm : host.indexManager
    case neg => exact .inr (.inl ⟨_, if_neg hm⟩)
    case pos =>
      refine .inr (.inr ⟨⟨_, rfl⟩, (if_pos hm).trans ?_⟩)
      exact judged (fun _ => rfl) fun kind _ => by cases kind <;> rfl
  all_goals exact .inl ⟨rfl, fun _ => rfl⟩

theorem step_atomic (hh : host.Lawful) (c : Call) : Atomic host.handle (step host c) := by
  rcases step_cases host c with ⟨h, -⟩ | ⟨e, h⟩ | ⟨-, h⟩ <;> rw [h]
  case inl     => exact .ret
  case inr.inl => exact .ret
  case inr.inr =>
    refine .call fun d he => ?_
    obtain ⟨e, he⟩ := he
    cases hc : host.handle c d
    case mk d' r =>
      rw [hc] at he
      cases r
      case ok    => cases he
      case error => exact hh.failed hc

theorem changes_of_step (hh : host.Lawful) (h : (step host c).eval host.handle d = (d', .ok ())) :
    c.Changes host.keyOf d d' := by
  rcases step_cases host c with ⟨hs, hc⟩ | ⟨e, hs⟩ | ⟨-, hs⟩ <;> rw [hs] at h
  case inl =>
    obtain ⟨rfl, -⟩ := Prod.mk.inj h
    intro name
    rw [hc, ite_self]
  case inr.inl => cases (Prod.mk.inj h).right
  case inr.inr =>
    rw [eval_call] at h
    obtain ⟨rfl, hj⟩ := Prod.mk.inj h
    cases hc : host.handle c d
    case mk d' r =>
      rw [hc] at hj
      cases r
      case ok      => exact hh.succeeded hc
      case error e =>
        have he := hh.failed hc
        subst he
        exact hh.redundant hc (Call.judge_eq_ok.mp hj)

theorem step_self (hh : host.Lawful) (hs : step host c = .call c fun r => .ret (c.judge r))
    (ha : c.Accepts (host.handle c d).2)
    (hc : ∀ name ∈ c.store, c.change host.keyOf (d.lookup name) = d.lookup name) :
    (step host c).eval host.handle d = (d, .ok ()) := by
  have hok : (step host c).eval host.handle d = ((host.handle c d).1, .ok ()) := by
    rw [hs, eval_call]
    exact congrArg (_, ·) (Call.judge_eq_ok.mpr ha)
  have hd := (changes_of_step hh hok).eq_self hc
  rw [hok, hd]

-- A request whose work is still there is accepted again, and changes nothing.
theorem step_again (hh : host.Lawful) (h : (step host c).eval host.handle d = (d', .ok ()))
    (hs : ∀ name ∈ c.store, c.Stays host.keyOf (d.lookup name) (d₂.lookup name)) :
    (step host c).eval host.handle d₂ = (d₂, .ok ()) := by
  rcases step_cases host c with ⟨he, -⟩ | ⟨e, he⟩ | ⟨⟨name, hn⟩, he⟩
  case inl => rw [he, eval_ret]
  case inr.inl =>
    rw [he] at h
    cases (Prod.mk.inj h).right
  case inr.inr =>
    refine step_self hh he ?_ fun name hn => ?_
    · rcases hs name hn with hd | ⟨-, hl⟩
      case inl => exact hh.again hn hd
      case inr =>
        rw [he] at h
        rw [hh.confined (d := d) fun name' hn' => ?_]
        · exact Call.judge_eq_ok.mp (Prod.mk.inj h).right
        · cases hn.symm.trans hn'
          exact hl
    · rcases hs name hn with hd | ⟨hc, hl⟩
      case inl => exact hd.change_eq
      case inr => rw [hl, hc]

theorem only_step {P : Call → Prop} (hc : P c) : Only P (step host c) := by
  rcases step_cases host c with ⟨h, -⟩ | ⟨e, h⟩ | ⟨-, h⟩ <;> rw [h]
  case inr.inr => exact .call hc fun _ => .ret _
  all_goals exact .ret _

theorem Lasting.converges (hh : host.Lawful) (hl : Lasting host l d)
    (h : (each (step host) l).eval host.handle d = (d', .ok ())) :
    Converges host.handle (each (step host) l) d (· = d') := by
  refine Settled.converges (step_atomic hh) (fun l₁ c l₂ l₃ d₂ he h₂ => ?_) h
  obtain ⟨d₁, h₁, hc⟩ := eval_each_append.mp h₂
  obtain ⟨d₁', hc, -⟩ := eval_andThen_eq_ok.mp hc
  exact step_again hh hc (hl l₁ c l₂ l₃ d₁ d₂ he h₁ h₂)

end Steps

-- Two databases differ at most in the ledger.
def SameOff (ledger : String) (d d' : Database) : Prop :=
  ∀ name ≠ ledger, d'.lookup name = d.lookup name

section Ledger

variable {host : Host} {ledger : String} {c : Call} {d d' : Database}

theorem Call.Off.store_ne (h : c.Off ledger) : c.store ≠ some ledger := by
  obtain ⟨name, hn, h⟩ := h
  rw [h]
  exact fun he => hn (Option.some.inj he)

theorem simulates_off (hh : host.Lawful) :
    Simulates host.handle (Call.Off ledger) (SameOff ledger) := by
  rintro c ⟨name, hn, hc⟩ d d' hd
  have he : (host.handle c d').2 = (host.handle c d).2 := by
    refine hh.confined fun name' hn' => ?_
    cases hc.symm.trans hn'
    exact hd name hn
  refine ⟨he, fun name' hn' => ?_⟩
  cases h : host.handle c d
  case mk d₁ r =>
    cases h' : host.handle c d'
    case mk d₁' r' =>
      rw [h, h'] at he
      dsimp only at he
      subst he
      cases r'
      case error => rw [hh.failed h, hh.failed h', hd name' hn']
      case ok    => rw [hh.succeeded h, hh.succeeded h', hd name' hn']

theorem lookup_of_runs {P : Call → Prop} (hh : host.Lawful) {p q : MigrationProgram α}
    (h : Runs host.handle p d q d') (hp : Only P p) (hn : ∀ c, P c → c.store ≠ some name) :
    d'.lookup name = d.lookup name :=
  h.invariant (I := fun d' => d'.lookup name = d.lookup name) hp
    (fun c _ hc hd => (hh.frame (hn c hc)).trans hd) rfl

end Ledger

namespace MigrationProgram

variable {host : Host} {transform : BackfillTransform} {d e : Database}

theorem applySchema_eq : applySchema host schema = each (step host) schema.calls := by
  rw [SchemaDeclaration.calls, each_append, each_append, each_append, each_map, each_map, each_map,
    each_map]
  rfl

theorem each_putValue {values : List (Except DbError (Option Record))}
    (h : (each (putValue transform) values).eval host.handle d = (e, .ok ())) :
    each (putValue transform) values = each (step host) (transform.puts values) := by
  induction values generalizing d
  case nil => rfl
  case cons value values hi =>
    obtain ⟨d₁, hv, hr⟩ := eval_andThen_eq_ok.mp h
    rcases value with err | _ | row
    · by_cases hk : err.kind = .notFound
      case pos =>
        have hp : putValue transform (.error err) = .ret (.ok ()) :=
          congrArg Program.ret (if_pos hk)
        rw [each, hp]
        exact hi hr
      case neg =>
        rw [show putValue transform (.error err) = .ret (.error err) from
          congrArg Program.ret (if_neg hk)] at hv
        cases (Prod.mk.inj hv).right
    · exact hi hr
    · exact congrArg (andThen _) (hi hr)

-- What follows after the cursor is opened.
def copyAll (transform : BackfillTransform) :
    Except DbError Cursor → MigrationProgram (Except DbError Unit)
  | .error e => .ret (.error e)
  | .ok cursor =>
    .andThen (.each (putValue transform) cursor.values) (.ret (cursor.err.elim (.ok ()) .error))

theorem applyBackfill_eq :
    applyBackfill transform = .call (.openCursor transform.source) (copyAll transform) := by
  refine congrArg (Program.call _) (funext fun r => ?_)
  cases r <;> rfl

theorem copyAll_eq {cursor : Cursor}
    (h : (copyAll transform (.ok cursor)).eval host.handle d = (e, .ok ())) :
    copyAll transform (.ok cursor) = each (step host) (transform.puts cursor.values) := by
  obtain ⟨d', hv, he⟩ := eval_andThen_eq_ok.mp h
  cases hc : cursor.err
  case some =>
    rw [hc] at he
    cases (Prod.mk.inj he).right
  case none =>
    rw [copyAll, hc]
    exact andThen_ok.trans (each_putValue hv)

theorem only_applyBackfill {P : Call → Prop} (hs : P (.openCursor transform.source))
    (hp : ∀ record, P (.put transform.into record)) : Only P (applyBackfill transform) := by
  rw [applyBackfill_eq]
  refine .call hs fun r => ?_
  cases r
  case error => exact .ret _
  case ok    =>
    refine (Only.each fun value _ => ?_).andThen (.ret _)
    rcases value with err | _ | row
    · exact .ret _
    · exact .ret _
    · exact .call (hp _) fun _ => .ret _

end MigrationProgram

namespace Revision

variable {host : Host} {ledger : String} {revision : Revision} {d e : Database}

-- A revision has a schema, or else it may have a backfill.
@[elab_as_elim]
theorem kinds {motive : Revision → Prop} (revision : Revision)
    (schema : ∀ id schema backfill, motive ⟨id, some schema, backfill⟩)
    (backfill : ∀ id transform, motive ⟨id, none, some transform⟩)
    (empty : ∀ id, motive ⟨id, none, none⟩) : motive revision := by
  obtain ⟨id, _ | s, _ | t⟩ := revision
  · exact empty id
  · exact backfill id t
  · exact schema id s _
  · exact schema id s _

theorem only_applyRevision (h : revision.LedgerFree ledger) :
    Only (Call.Off ledger) (applyRevision host revision) := by
  induction revision using kinds
  case schema schema _ =>
    change Only _ (applySchema host schema)
    rw [applySchema_eq]
    exact .each fun c hc => only_step (h c hc)
  case backfill => exact only_applyBackfill ⟨_, h.left, rfl⟩ fun _ => ⟨_, h.right, rfl⟩
  case empty    => exact .ret _

-- The source of a backfill is not written to, so the cursor gives the same values each time.
theorem converges_of_backfill {id : String} {transform : BackfillTransform} (hh : host.Lawful)
    (hd : transform.source ≠ transform.into)
    (hl : Lasting host (calls host ⟨id, none, some transform⟩ d) d)
    (h : (applyBackfill transform).eval host.handle d = (e, .ok ())) :
    Converges host.handle (applyBackfill transform) d (· = e) := by
  have hread {d : Database} : (host.handle (.openCursor transform.source) d).1 = d :=
    hh.read fun _ => rfl
  rw [applyBackfill_eq] at h ⊢
  rw [eval_call, hread] at h
  cases hc : (host.handle (.openCursor transform.source) d).2
  case error =>
    rw [hc] at h
    cases (Prod.mk.inj h).right
  case ok cursor =>
    rw [hc] at h
    dsimp only [calls] at hl
    rw [hc] at hl
    have he := copyAll_eq h
    rw [he] at h
    refine .call (he ▸ hl.converges hh h) fun d' hd' => Prod.ext hread ?_
    rw [← hc]
    refine hh.confined fun name hn => ?_
    cases hn
    refine hd'.invariant (I := fun d' => d'.lookup transform.source = d.lookup transform.source)
      (fun hs hr => (lookup_of_runs hh hr ?_ fun _ hx => hx).trans hs) rfl
    rw [he]
    refine .each fun c hm => only_step ?_
    obtain ⟨value, -, hv⟩ := List.mem_filterMap.mp hm
    obtain ⟨row, -, rfl⟩ := Option.map_eq_some_iff.mp hv
    exact fun hx => hd (Option.some.inj hx).symm

theorem Replayable.converges (hh : host.Lawful) (hr : revision.Replayable host ledger d)
    (hd : revision.Distinct) (h : (applyRevision host revision).eval host.handle d = (e, .ok ())) :
    Converges host.handle (applyRevision host revision) d (· = e) := by
  induction revision using kinds
  case schema schema _ =>
    change (applySchema host schema).eval _ d = _ at h
    change Converges _ (applySchema host schema) d _
    rw [applySchema_eq] at h ⊢
    exact hr.lasting.converges hh h
  case backfill transform => exact converges_of_backfill hh (hd transform rfl) hr.lasting h
  case empty =>
    rintro d' hs
    obtain ⟨rfl, -⟩ := Prod.mk.inj h
    refine ⟨d', rfl, hs.invariant (I := (· = d)) (fun he hq => ?_) rfl⟩
    exact hq.of_ret.right.trans he

end Revision
end Migrations
