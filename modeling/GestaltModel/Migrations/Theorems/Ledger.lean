import GestaltModel.Migrations.Theorems.Revisions

namespace Migrations

open Interleaving Interleaving.Program MigrationProgram

section Checks

variable {host : Host} {revisions : List Revision}

end Checks

def ledgerIDs (ledger : String) (d : Database) : List String :=
  (d.lookup ledger).elim [] (·.rows.sortedKeys)

-- The ledger, if it is there, is as a run creates it, up to its rows.
def LedgerMade (ledger : String) (d : Database) : Prop :=
  ∀ store, d.lookup ledger = some store → store.columns = ledgerColumns ∧ store.indexes = ∅

section Ledger

variable {host : Host} {ledger id : String} {d d' : Database}

theorem mem_ledgerIDs (h : d.lookup ledger = some store) :
    id ∈ ledgerIDs ledger d ↔ id ∈ store.rows := by
  rw [ledgerIDs, h]
  exact GoMap.mem_sortedKeys

theorem ledgerIDs_congr (h : d'.lookup ledger = d.lookup ledger) :
    ledgerIDs ledger d' = ledgerIDs ledger d := by
  rw [ledgerIDs, ledgerIDs, h]

theorem LedgerMade.congr (hl : LedgerMade ledger d) (h : d'.lookup ledger = d.lookup ledger) :
    LedgerMade ledger d' := by
  rw [LedgerMade, h]
  exact hl

theorem LedgerMade.eq_some (hl : LedgerMade ledger d) (hs : (d.lookup ledger).isSome) :
    ∃ rows, d.lookup ledger = some { columns := ledgerColumns, rows } := by
  obtain ⟨store, hs⟩ := Option.isSome_iff_exists.mp hs
  obtain ⟨hc, hi⟩ := hl store hs
  refine ⟨store.rows, hs.trans (congrArg some ?_)⟩
  exact Store.ext hc hi rfl

theorem recordRevision_ok (hh : host.Lawful) (hl : LedgerMade ledger d)
    (hs : (d.lookup ledger).isSome) (id appliedAt : String) :
    ∃ d', host.handle (.put ledger (ledgerRecord id appliedAt)) d = (d', .ok ()) ∧
      SameOff ledger d d' ∧ LedgerMade ledger d' ∧ (d'.lookup ledger).isSome ∧
      ∀ id', id' ∈ ledgerIDs ledger d' ↔ id' = id ∨ id' ∈ ledgerIDs ledger d := by
  obtain ⟨rows, hs⟩ := hl.eq_some hs
  have hok := hh.records hs id appliedAt
  cases hc : host.handle (.put ledger (ledgerRecord id appliedAt)) d
  case mk d' r =>
    rw [hc] at hok
    dsimp only at hok
    subst hok
    have hd := hh.succeeded hc
    have hd' : d'.lookup ledger =
        some { columns := ledgerColumns, rows := rows.insert id (ledgerRecord id appliedAt) } := by
      rw [hd.self rfl, hs]
      exact congrArg (fun key => some (Store.withRow _ key _)) (hh.key id appliedAt)
    refine ⟨d', rfl, fun name hn => hd.frame fun he => hn (Option.some.inj he).symm, ?_, ?_, ?_⟩
    · intro store' hs'
      cases hd'.symm.trans hs'
      exact ⟨rfl, rfl⟩
    · rw [hd']
      rfl
    · intro id'
      rw [mem_ledgerIDs hd', mem_ledgerIDs hs]
      exact Finmap.mem_insert

end Ledger

end Migrations
