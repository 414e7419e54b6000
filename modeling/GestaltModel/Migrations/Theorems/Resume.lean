import GestaltModel.Migrations.SchemaMatching
import GestaltModel.Migrations.Theorems.Ledger

namespace Migrations

open Interleaving Interleaving.Program MigrationProgram Revision

-- The revisions can be applied one after the other, whatever is cut off in between, and end in `e`.
def Leads (host : Host) (ledger : String) : List Revision → Database → Database → Prop
  | [], d, e => SameOff ledger d e
  | r :: todo, d, e => r.LedgerFree ledger ∧
    Converges host.handle (applyRevision host r) d (Leads host ledger todo · e)

-- The revisions that are done are recorded, besides those of others, and the rest is to do.
structure Stage (host : Host) (ledger : String) (others : String → Prop) (e : Database)
    (done todo : List Revision) (d : Database) : Prop where
  leads : Leads host ledger todo d e
  made : LedgerMade ledger d
  recorded : ∀ id, id ∈ ledgerIDs ledger d ↔ others id ∨ ∃ r ∈ done, r.id = id

section Loop

variable {host : Host} {ledger : String} {others : String → Prop}
variable {e d d' : Database} {done todo : List Revision} {r : Revision}

theorem Leads.congr (hh : host.Lawful) (h : Leads host ledger todo d e) (hd : SameOff ledger d d') :
    Leads host ledger todo d' e := by
  induction todo generalizing d d'
  case nil => exact fun name hn => (h name hn).trans (hd name hn).symm
  case cons r todo hi =>
    obtain ⟨hf, hr⟩ := h
    exact ⟨hf, hr.congr (simulates_off hh) (only_applyRevision hf) hd fun _ _ he hx => hi hx he⟩

theorem Stage.cut (hh : host.Lawful) {q : MigrationProgram (Except DbError Unit)}
    (h : Stage host ledger others e done (r :: todo) d)
    (hr : Runs host.handle (applyRevision host r) d q d') :
    Stage host ledger others e done (r :: todo) d' ∧ d'.lookup ledger = d.lookup ledger := by
  obtain ⟨⟨hf, hx⟩, hm, hrec⟩ := h
  have he := lookup_of_runs hh hr (only_applyRevision hf) fun _ => Call.Off.store_ne
  refine ⟨⟨⟨hf, hx.of_runs hr⟩, hm.congr he, ?_⟩, he⟩
  rw [ledgerIDs_congr he]
  exact hrec

variable {now : String → String}

theorem Stage.step (hh : host.Lawful) (h : Stage host ledger others e done (r :: todo) d)
    (hs : (d.lookup ledger).isSome) (appliedAt : String) :
    ∃ d₁ d₂, (applyRevision host r).eval host.handle d = (d₁, .ok ()) ∧
      (Stage host ledger others e done (r :: todo) d₁ ∧ (d₁.lookup ledger).isSome) ∧
      host.handle (.put ledger (ledgerRecord r.id appliedAt)) d₁ = (d₂, .ok ()) ∧
      Stage host ledger others e (done ++ [r]) todo d₂ ∧ (d₂.lookup ledger).isSome := by
  obtain ⟨d₁, hd₁, hl⟩ := h.leads.right d .refl
  have hend : Runs host.handle (applyRevision host r) d _ _ := Runs.to_end _ d
  rw [hd₁] at hend
  obtain ⟨h₁, he⟩ := h.cut hh hend
  have hs₁ : (d₁.lookup ledger).isSome := he ▸ hs
  obtain ⟨d₂, hd₂, hsame, hm, hs₂, hids⟩ := recordRevision_ok hh h₁.made hs₁ r.id appliedAt
  refine ⟨d₁, d₂, hd₁, ⟨h₁, hs₁⟩, hd₂, ⟨hl.congr hh hsame, hm, fun id => ?_⟩, hs₂⟩
  rw [hids, h₁.recorded]
  simp only [List.mem_append, List.mem_singleton]
  grind

end Loop

section Runs

variable {host : Host} {ledger : String} {others : String → Prop}
variable {e d d' : Database} {done todo revisions : List Revision} {now : String → String}

-- Revisions with different ids, and recorded ids of others that the code does not claim.
structure Accepted (revisions : List Revision) (others : String → Prop) : Prop where
  nodup : (revisions.map (·.id)).Nodup
  others : ∀ id, others id →
    id ∉ revisions.map (·.id) ∧ ledgerIDOwnedByProvider id revisions = false

variable {opts : RunOptions}

end Runs

section Demos

open SchemaMatching (host)

end Demos
end Migrations
