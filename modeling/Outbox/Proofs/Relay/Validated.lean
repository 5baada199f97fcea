import Outbox.Proofs.Command.Settings
import Outbox.Proofs.Relay.Watch
import Outbox.Proofs.Relay.Worlds

/-! Relays of settings that pass their check. The seconds that a tick takes at most are the patience of the relay that
is built from the settings. So a tick ends before the threshold is over, and no row is claimed again as long as its
owner may still write what became of it. -/

namespace Outbox

open Relay (Watch)
open Simulation (World tableBackend)

namespace Settings

variable {s : Settings} {relay : Relay}

/-- What is built from settings whose partition is one. -/
theorem exists_of_relay (h : s.relay = .ok relay) :
    ∃ config, config.batchSize = s.batchSize.toNat ∧ config.stuck = .ofSeconds s.stuck.toNat ∧
      relay = { config := config, publisher := s.publisher, graveyard := s.graveyard, policy := s.policy } := by
  rw [Settings.relay, relayConfig] at h
  cases hpartition : s.partition with
  | error fault =>
    rw [hpartition] at h
    cases h
  | ok p =>
    rw [hpartition] at h
    cases h
    exact ⟨_, rfl, rfl, rfl⟩

/-- The relay of settings that pass has the patience of the worst tick. -/
theorem patience_of_check (h : s.check = .ok ()) (hrelay : s.relay = .ok relay) :
    relay.patience = s.worstTickSeconds * 1000 := by
  obtain ⟨config, hbatch, -, rfl⟩ := exists_of_relay hrelay
  rw [worstTickSeconds_of_check h, Relay.patience, hbatch]
  dsimp only [publisher, graveyard, deliveryLimit]
  rw [Span.timerMillis_ofSeconds, ← Nat.add_mul, Nat.mul_assoc]

end Settings

/-- Under one clock, with calls that take no time, relays that are built from settings that pass their check and have
the same threshold, which a date can be moved by, keep their rows. A tick ends no later than the worst tick after
it began to claim. From a relay's claim of a row until it marks the row, or its tick is over, the row stands in the
table as it was claimed, and no claim of that threshold would get it, of any partition and with any limit. The
simulated world, in which somebody else may mark rows and calls may fail, keeps a tick to the same time. -/
theorem Relay.Watch.rows_kept {ι : Type} [DecidableEq ι] [Fintype ι] (settings : ι → Settings) (relays : ι → Relay)
    (stuck : UInt64) (hcheck : ∀ i, (settings i).check = .ok ()) (hrelays : ∀ i, (settings i).relay = .ok (relays i))
    (hstuck : ∀ i, (settings i).stuck = stuck) (hshift : (Span.ofSeconds stuck.toNat).nanos ≤ Span.longestShift.nanos)
    (start : Instant) (moves : List (Watch.Move ι)) :
    let w := Watch.run relays start moves
    (∀ i, w.phase i ≠ .idle → w.time ≤ w.begun i + (settings i).worstTick.nanos) ∧
    (∀ i row, w.phase i ≠ .idle → (w.story i).Holds row →
      w.table.find? row.id = some row ∧ row.status = .sending ∧ row.updatedAt = w.clockAt (w.begun i) ∧
      ∀ p limit, ¬w.table.Hands (.claim p limit w.clock (.ofSeconds stuck.toNat)) row.id) ∧
    ∀ i disruptions (world : World (Disruption.State Table)),
      (world.complete (tableBackend.disrupted disruptions) (relays i).tick.run).2.elapsed ≤
        world.elapsed + (settings i).worstTickSeconds * 1000 := by
  intro w
  have hpatience (i : ι) : (relays i).patience = (settings i).worstTickSeconds * 1000 :=
    Settings.patience_of_check (hcheck i) (hrelays i)
  have hworst (i : ι) : Watch.nanos (relays i).patience = (settings i).worstTick.nanos := by
    rw [hpatience, Watch.nanos, Settings.worstTick, Span.ofSeconds, Nat.mul_assoc]
  have hallied : Watch.Allied relays (.ofSeconds stuck.toNat) := by
    refine ⟨fun i => ?_, if_pos hshift, fun i => ?_⟩
    · obtain ⟨config, -, hconfig, hrelay⟩ := Settings.exists_of_relay (hrelays i)
      rw [hrelay, ← hstuck i]
      exact hconfig
    · rw [hworst, ← hstuck i]
      exact Nat.mul_lt_mul_of_pos_right (Settings.worstTickSeconds_lt_of_check (hcheck i)).2 (by decide)
  have horderly := Watch.orderly_run hallied start moves
  refine ⟨fun i hphase => ?_, fun i row hphase hholds => ?_, fun i disruptions world => ?_⟩
  · rw [← hworst]
    exact (horderly.punctual i).le (horderly.follows i) hphase
  · obtain ⟨hfound, hsending, hclaimed⟩ := horderly.custody.found i row ⟨hphase, hholds⟩
    exact ⟨hfound, hsending, hclaimed, horderly.not_hands hallied ⟨hphase, hholds⟩⟩
  · rw [← hpatience]
    exact World.elapsed_tick_le (relays i) disruptions world

/-- The default settings, with rows in memory. -/
def Settings.plain : Settings := { inMemory := true }

/-- The relay that is built from them. -/
def Relay.plain : Relay where
  config := { batchSize := 100, stuck := .ofSeconds 600, pause := .ofMillis 1000 }
  publisher := Settings.plain.publisher
  graveyard := Settings.plain.graveyard
  policy := Settings.plain.policy

/-- A relay claims the row of an event and waits for its delivery for four seconds. -/
def Relay.Watch.wait : List (Watch.Move Bool) :=
  [.save {
    id := 1, aggregateType := "Order", aggregateId := "order-1", kind := "OrderPlaced", payload := [123, 125]
    createdAt := .epoch },
   .start true {}, .proceed true none, .proceed true none, .proceed true none, .proceed true none, .pass 4000000000]

/-- The row of a relay that waits is not claimed again. -/
theorem Relay.Watch.plain_row_kept :
    let w := Watch.run (fun _ => Relay.plain) .epoch Watch.wait
    w.time = 4000000000 ∧ w.time ≤ w.begun true + Settings.plain.worstTick.nanos ∧
      ¬w.table.Hands (.claim .whole 100 w.clock (.ofSeconds 600)) 1 := by
  intro w
  have hcheck : Settings.plain.check = .ok () := by decide +kernel
  have hrelay : Settings.plain.relay = .ok Relay.plain := by decide +kernel
  have htime : w.time = 4000000000 := by decide +kernel
  have hbusy : w.Sleeps 5000000001 true = false := by decide +kernel
  have hheld : ∃ row ∈ (w.story true).claimed, row.id ∉ (w.story true).marked ∧ row.id = 1 := by decide +kernel
  obtain ⟨row, hrow, hunmarked, hid⟩ := hheld
  have hphase : w.phase true ≠ .idle := fun hidle => by
    rw [Sleeps, hidle] at hbusy
    cases hbusy
  obtain ⟨hworst, hkept, -⟩ := Watch.rows_kept (fun _ => Settings.plain) (fun _ => Relay.plain) 600 (fun _ => hcheck)
    (fun _ => hrelay) (fun _ => rfl) (by decide) .epoch Watch.wait
  obtain ⟨-, -, -, hfree⟩ := hkept true row hphase ⟨hrow, hunmarked⟩
  refine ⟨htime, hworst true hphase, ?_⟩
  rw [← hid]
  exact hfree .whole 100

end Outbox
