import Mathlib.Data.Multiset.UnionInter
import Outbox.Proofs.Relay.UnusedTickets
import Outbox.Proofs.Relay.Supersession
import Outbox.Proofs.Store.Attempts

/-! Deliveries of a fleet that share no number. A claim gives its relay tickets that were never given out before, for
attempts that the rows had not reached, and a relay posts nothing without a ticket of its own. So no two messages that
are ever posted are of the same attempt of the same event, and no two dead letters. -/

namespace Outbox.Relay

open Simulation (Ending Flight)

/-- The relay has a ticket for each parcel that it still posts. -/
def Phase.Affords (relay : Relay) (unused : Multiset Ticket) : Phase → Prop
  | .idle => True
  | .working rest => rest.Affords relay (fun _ _ => True) unused
  | .waiting _ _ _ next => ∀ deliveries, (next deliveries).Affords relay (fun _ _ => True) unused

theorem job_affords (relay : Relay) (job : Job) : (job.program relay).Affords relay (fun _ _ => True) 0 := by
  cases job with
  | tickAt now => exact Program.Affords.bind (tickAt_affords relay now) fun _ _ _ => .pure trivial
  | runTick stats => exact Program.Affords.bind (runTick_affords relay stats) fun _ _ _ => .pure trivial

theorem Exchange.claimed_answer (t : Table) (request : Request) :
    Exchange.claimed ⟨.ask request, (t.answer request).1⟩ = t.returned request := by
  cases request with
  | claim p limit now stuck =>
    rw [Table.answer, Table.returned]
    cases t.claim p limit now stuck <;> rfl
  | save | markPublished | markFailed | markDead | counts => rfl

/-- A claim brings tickets that were out of reach before. -/
theorem income_fresh {t : Table} {request : Request} {ticket : Ticket}
    (h : ticket ∈ Exchange.income ⟨.ask request, (t.answer request).1⟩) :
    t.attempts ticket.id < ticket.attempt ∧ ticket.attempt ≤ (t.after request).attempts ticket.id := by
  rw [Exchange.income, Exchange.claimed_answer] at h
  suffices ∃ r ∈ t.returned request, ticket.id = r.id ∧ ticket.attempt = r.attempt by
    obtain ⟨r, hr, hid, hattempt⟩ := this
    obtain ⟨hbefore, hafter⟩ := Table.attempts_of_returned hr
    rw [hid]
    omega
  rcases Multiset.mem_add.1 h with h | h <;>
  · obtain ⟨r, hr, rfl⟩ := List.mem_map.1 (Multiset.mem_coe.1 h)
    exact ⟨r, hr, rfl, rfl⟩

theorem nodup_tickets {kind : Int → Int → Ticket} (hkind : ∀ id attempt, (kind id attempt).id = id) {rows : List Row}
    (hids : (rows.map Row.id).Nodup) : (tickets kind rows).Nodup := by
  have hmap : (rows.map fun r => kind r.id r.attempt).map Ticket.id = rows.map Row.id := by
    rw [List.map_map]
    exact List.map_congr_left fun r _ => hkind r.id r.attempt
  apply Multiset.coe_nodup.2
  apply List.Nodup.of_map Ticket.id
  rwa [hmap]

theorem nodup_income (t : Table) (request : Request) :
    (Exchange.income ⟨.ask request, (t.answer request).1⟩).Nodup := by
  have hids := t.nodup_returned request
  rw [Exchange.income, Exchange.claimed_answer, Multiset.nodup_add]
  refine ⟨nodup_tickets (fun _ _ => rfl) hids, nodup_tickets (fun _ _ => rfl) hids, ?_⟩
  rw [Multiset.disjoint_left]
  intro ticket hmessage hletter
  obtain ⟨r, -, rfl⟩ := List.mem_map.1 (Multiset.mem_coe.1 hmessage)
  obtain ⟨r', -, hticket⟩ := List.mem_map.1 (Multiset.mem_coe.1 hletter)
  cases hticket

namespace Fleet

variable {ι : Type} [DecidableEq ι] {relays : ι → Relay} {f : Fleet ι} {used : Multiset Ticket}
  {unused : ι → Multiset Ticket} {i : ι}

/-- The parcels that a relay starts to deliver in a move. -/
def posted (f : Fleet ι) : Move ι → List (ι × Parcel)
  | .proceed i _ =>
    match f.phase i with
    | .working (.act action _) => action.parcels.map (i, ·)
    | _ => []
  | .save _ | .start _ _ | .land _ _ _ _ _ => []

/-- The parcels that are posted in moves one after the other, each with its relay. -/
def posts (relays : ι → Relay) : Fleet ι → List (Move ι) → List (ι × Parcel)
  | _, [] => []
  | f, move :: rest => f.posted move ++ posts relays (f.step relays move) rest

/-- No ticket is in two hands or used twice, and all are for attempts that the rows have reached. -/
structure Allotted (t : Table) (used : Multiset Ticket) (unused : ι → Multiset Ticket) : Prop where
  used_once : used.Nodup
  nodup : ∀ i, (used + unused i).Nodup
  apart : ∀ i j, i ≠ j → Disjoint (unused i) (unused j)
  reached : ∀ i, ∀ ticket ∈ used + unused i, ticket.attempt ≤ t.attempts ticket.id

/-- Unused tickets that are disjoint from those of the others can be put in the place of one relay's. -/
theorem apart_update (h : ∀ i j, i ≠ j → Disjoint (unused i) (unused j)) {tickets : Multiset Ticket}
    (htickets : ∀ j, j ≠ i → Disjoint tickets (unused j)) (j k : ι) (hjk : j ≠ k) :
    Disjoint (Function.update unused i tickets j) (Function.update unused i tickets k) := by
  by_cases hj : j = i
  · subst hj
    rw [Function.update_self, Function.update_of_ne hjk.symm]
    exact htickets k hjk.symm
  · rw [Function.update_of_ne hj]
    by_cases hk : k = i
    · subst hk
      rw [Function.update_self]
      exact (htickets j hj).symm
    · rw [Function.update_of_ne hk]
      exact h j k hjk

/-- A relay uses some of its tickets and keeps others. -/
theorem Allotted.use {t : Table} (h : Allotted t used unused) {spent left : Multiset Ticket}
    (hspent : spent + left ≤ unused i) : Allotted t (used + spent) (Function.update unused i left) := by
  have hown : used + spent + left ≤ used + unused i := by
    rw [Multiset.add_assoc]
    exact Multiset.add_le_add_left hspent
  have hused : used + spent ≤ used + unused i := (Multiset.le_add_right _ left).trans hown
  have hleft : left ≤ unused i := (Multiset.le_add_left left spent).trans hspent
  have honce : (used + spent).Nodup := Multiset.nodup_of_le hused (h.nodup i)
  -- What the relay has used now was its own, so no other relay has it.
  have hothers (j : ι) (hj : j ≠ i) : Disjoint (used + spent) (unused j) := by
    rw [Multiset.disjoint_left]
    intro ticket hticket hunused
    rcases Multiset.mem_add.1 (Multiset.mem_of_le hused hticket) with hold | hmine
    · exact Multiset.disjoint_left.1 (Multiset.nodup_add.1 (h.nodup j)).2.2 hold hunused
    · exact Multiset.disjoint_left.1 (h.apart j i hj) hunused hmine
  constructor
  · exact honce
  · rw [Function.forall_update_iff unused fun _ tickets => (used + spent + tickets).Nodup]
    refine ⟨Multiset.nodup_of_le hown (h.nodup i), fun j hj => ?_⟩
    exact Multiset.nodup_add.2 ⟨honce, (Multiset.nodup_add.1 (h.nodup j)).2.1, hothers j hj⟩
  · apply apart_update h.apart
    intro j hj
    rw [Multiset.disjoint_left]
    intro ticket hticket
    exact Multiset.disjoint_left.1 (h.apart i j hj.symm) (Multiset.mem_of_le hleft hticket)
  · rw [Function.forall_update_iff unused fun _ tickets =>
      ∀ ticket ∈ used + spent + tickets, ticket.attempt ≤ t.attempts ticket.id]
    refine ⟨fun ticket hticket => h.reached i ticket (Multiset.mem_of_le hown hticket), fun j _ ticket hticket => ?_⟩
    rcases Multiset.mem_add.1 hticket with hspent | hunused
    · exact h.reached i ticket (Multiset.mem_of_le hused hspent)
    · exact h.reached j ticket (Multiset.mem_add.2 (.inr hunused))

/-- A relay gets tickets for attempts that the rows reach just then. -/
theorem Allotted.earn {t t' : Table} (h : Allotted t used unused) {income : Multiset Ticket} (hnodup : income.Nodup)
    (hkept : ∀ id, t.attempts id ≤ t'.attempts id)
    (hfresh : ∀ ticket ∈ income, t.attempts ticket.id < ticket.attempt ∧ ticket.attempt ≤ t'.attempts ticket.id) :
    Allotted t' used (Function.update unused i (unused i + income)) := by
  have hnew (j : ι) : Disjoint (used + unused j) income := by
    rw [Multiset.disjoint_left]
    intro ticket hticket hincome
    have hold := h.reached j ticket hticket
    have hlate := (hfresh ticket hincome).1
    omega
  have hheld (j : ι) (ticket : Ticket) (hticket : ticket ∈ used + unused j) : ticket.attempt ≤ t'.attempts ticket.id :=
    (h.reached j ticket hticket).trans (hkept ticket.id)
  constructor
  · exact h.used_once
  · rw [Function.forall_update_iff unused fun _ tickets => (used + tickets).Nodup]
    refine ⟨?_, fun j _ => h.nodup j⟩
    rw [← Multiset.add_assoc, Multiset.nodup_add]
    exact ⟨h.nodup i, hnodup, hnew i⟩
  · apply apart_update h.apart
    intro j hj
    rw [Multiset.disjoint_add_left]
    refine ⟨h.apart i j hj.symm, Multiset.disjoint_left.2 fun hincome hunused => ?_⟩
    exact Multiset.disjoint_left.1 (hnew j) (Multiset.mem_add.2 (.inr hunused)) hincome
  · rw [Function.forall_update_iff unused fun _ tickets =>
      ∀ ticket ∈ used + tickets, ticket.attempt ≤ t'.attempts ticket.id]
    refine ⟨fun ticket hticket => ?_, fun j _ => hheld j⟩
    rw [← Multiset.add_assoc] at hticket
    rcases Multiset.mem_add.1 hticket with hold | hincome
    · exact hheld i ticket hold
    · exact (hfresh ticket hincome).2

/-- Each relay has the tickets that it still needs, and the tickets are allotted. -/
structure Solvent (relays : ι → Relay) (f : Fleet ι) (used : Multiset Ticket) (unused : ι → Multiset Ticket) : Prop where
  affords : ∀ i, (f.phase i).Affords (relays i) (unused i)
  allotted : Allotted f.table used unused

/-- A relay uses some of its tickets, keeps others and gets new ones. -/
theorem Solvent.spend (h : f.Solvent relays used unused) {spent left income : Multiset Ticket} {table : Table}
    {phase : Phase} (hspent : spent + left ≤ unused i) (hphase : phase.Affords (relays i) (left + income))
    (hnodup : income.Nodup) (hkept : ∀ id, f.table.attempts id ≤ table.attempts id)
    (hfresh : ∀ ticket ∈ income, f.table.attempts ticket.id < ticket.attempt ∧
      ticket.attempt ≤ table.attempts ticket.id) :
    Solvent relays ({ f with table := table }.become i phase) (used + spent)
      (Function.update unused i (left + income)) := by
  constructor
  · intro j
    by_cases hj : j = i
    · subst hj
      rw [phase_become, Function.update_self]
      exact hphase
    · rw [phase_become_of_ne hj, Function.update_of_ne hj]
      exact h.affords j
  · have hearned := (h.allotted.use hspent).earn (i := i) hnodup hkept hfresh
    rwa [Function.update_self, Function.update_idem] at hearned

/-- A relay uses some of its tickets and gets none. -/
theorem Solvent.spend_only (h : f.Solvent relays used unused) {spent left : Multiset Ticket} {phase : Phase}
    (hspent : spent + left ≤ unused i) (hphase : phase.Affords (relays i) (left + 0)) :
    (f.become i phase).Solvent relays (used + spent) (Function.update unused i (left + 0)) :=
  h.spend hspent hphase Multiset.nodup_zero (fun _ => le_rfl) fun _ hnone => absurd hnone (Multiset.notMem_zero _)

/-- A relay goes on with the tickets that it has. -/
theorem Solvent.become (h : f.Solvent relays used unused) {phase : Phase}
    (hphase : phase.Affords (relays i) (unused i)) : (f.become i phase).Solvent relays used unused := by
  have hspend : (f.become i phase).Solvent relays (used + 0) (Function.update unused i (unused i + 0)) := by
    apply h.spend_only
    · rw [Multiset.zero_add]
    · rwa [Multiset.add_zero]
  rwa [Multiset.add_zero, Multiset.add_zero, Function.update_eq_self] at hspend

/-- An action of a relay takes tickets for what it posts. -/
theorem Solvent.act (h : f.Solvent relays used unused) (chance : Chance) {action : Action}
    {next : action.Answer → Program Unit} (hphase : f.phase i = .working (.act action next)) :
    ∃ (spent : List Ticket) (unused' : ι → Multiset Ticket),
      List.Forall₂ (relays i).Sends action.parcels spent ∧
      (f.act i chance action next).Solvent relays (used + ↑spent) unused' := by
  have hnow := h.affords i
  rw [hphase] at hnow
  obtain ⟨spent, left, hsends, hspent, hnext⟩ := hnow
  cases action with
  | ask request =>
    rw [Fleet.act]
    cases chance.fault with
    | some fault =>
      have hnone : Exchange.income ⟨.ask request, .error (.fault fault)⟩ = 0 := by cases request <;> rfl
      have hafter := hnext (.error (.fault fault))
      rw [hnone] at hafter
      exact ⟨spent, _, hsends, h.spend_only hspent hafter⟩
    | none =>
      exact ⟨spent, _, hsends, h.spend hspent (hnext _) (nodup_income f.table request)
        (f.table.attempts_le_after request) fun ticket hticket => income_fresh hticket⟩
  | now => exact ⟨spent, _, hsends, h.spend_only hspent (hnext chance.now)⟩
  | elapsed => exact ⟨spent, _, hsends, h.spend_only hspent (hnext chance.elapsed)⟩
  | note m => exact ⟨spent, _, hsends, h.spend_only hspent (hnext ())⟩
  | deliver measured limit parcels => exact ⟨spent, _, hsends, h.spend_only hspent hnext⟩

/-- A move of the fleet takes tickets for what is posted in it. -/
theorem Solvent.step (h : f.Solvent relays used unused) (move : Move ι) :
    ∃ (spent : List Ticket) (unused' : ι → Multiset Ticket),
      List.Forall₂ (fun post ticket => (relays post.1).Sends post.2 ticket) (f.posted move) spent ∧
      (f.step relays move).Solvent relays (used + ↑spent) unused' := by
  have hnone {f' : Fleet ι} {move : Move ι} (hposted : f.posted move = []) (h' : f'.Solvent relays used unused) :
      ∃ (spent : List Ticket) (unused' : ι → Multiset Ticket),
        List.Forall₂ (fun post ticket => (relays post.1).Sends post.2 ticket) (f.posted move) spent ∧
        f'.Solvent relays (used + ↑spent) unused' := by
    refine ⟨[], unused, ?_, ?_⟩
    · rw [hposted]
      exact .nil
    · rwa [Multiset.coe_nil, Multiset.add_zero]
  cases move with
  | save event =>
    obtain ⟨honce, hnodup, hapart, hreached⟩ := h.allotted
    refine hnone rfl ⟨h.affords, honce, hnodup, hapart, fun i ticket hticket => ?_⟩
    exact (hreached i ticket hticket).trans (f.table.attempts_le_after (.save event) ticket.id)
  | start i job =>
    apply hnone rfl
    rw [Fleet.step]
    split
    · exact h.become ((job_affords (relays i) job).mono (Multiset.zero_le _))
    · exact h
  | proceed i chance =>
    have hnow := h.affords i
    cases hphase : f.phase i with
    | idle =>
      apply hnone
      · simp only [posted, hphase]
      · simpa only [Fleet.step, hphase] using h
    | working rest =>
      cases rest with
      | done result =>
        apply hnone
        · simp only [posted, hphase]
        · have hidle : Phase.Affords (relays i) (unused i) .idle := trivial
          simpa only [Fleet.step, hphase] using h.become hidle
      | act action next =>
        obtain ⟨spent, unused', hsends, hafter⟩ := h.act chance hphase
        refine ⟨spent, unused', ?_, ?_⟩
        · simp only [posted, hphase, List.forall₂_map_left_iff]
          exact hsends
        · simpa only [Fleet.step, hphase] using hafter
    | waiting measured limit passages next =>
      apply hnone
      · simp only [posted, hphase]
      · simp only [Fleet.step, hphase]
        rw [hphase] at hnow
        split
        · next deliveries _ => exact h.become (hnow deliveries)
        · exact h
  | land i place start delay ending =>
    apply hnone rfl
    rw [Fleet.step, Fleet.land]
    split
    · next hphase =>
      split
      · have hnow := h.affords i
        rw [hphase] at hnow
        have hlanded (landings : List (ι × Flight)) : Solvent relays { f with landed := landings } used unused :=
          ⟨h.affords, h.allotted⟩
        exact (hlanded _).become hnow
      · exact h
    · exact h

/-- All that is posted in a run has a ticket of its own. -/
theorem Solvent.run (h : f.Solvent relays used unused) (moves : List (Move ι)) :
    ∃ (spent : List Ticket) (unused' : ι → Multiset Ticket),
      List.Forall₂ (fun post ticket => (relays post.1).Sends post.2 ticket) (f.posts relays moves) spent ∧
      (moves.foldl (Fleet.step relays) f).Solvent relays (used + ↑spent) unused' := by
  induction moves generalizing f used unused with
  | nil =>
    refine ⟨[], unused, .nil, ?_⟩
    rwa [Multiset.coe_nil, Multiset.add_zero]
  | cons move rest ih =>
    obtain ⟨spent, unused', hsends, hstep⟩ := h.step move
    obtain ⟨spent', unused'', hsends', hrun⟩ := ih hstep
    refine ⟨spent ++ spent', unused'', List.rel_append hsends hsends', ?_⟩
    rwa [← Multiset.coe_add, ← Multiset.add_assoc]

omit [DecidableEq ι] in
theorem solvent_start (relays : ι → Relay) : Solvent relays {} 0 fun _ => 0 where
  affords _ := trivial
  allotted := {
    used_once := Multiset.nodup_zero
    nodup := fun _ => Multiset.nodup_zero
    apart := fun _ _ _ => disjoint_bot_left
    reached := fun _ _ hnone => absurd hnone (Multiset.notMem_zero _) }

omit [DecidableEq ι] in
/-- Parcels with different tickets share none. -/
theorem pairwise_of_sends {posts : List (ι × Parcel)} {spent : List Ticket}
    (h : List.Forall₂ (fun post ticket => (relays post.1).Sends post.2 ticket) posts spent) (hspent : spent.Nodup) :
    (∀ post ∈ posts, ∃ ticket ∈ spent, (relays post.1).Sends post.2 ticket) ∧
    posts.Pairwise (fun a b => ∀ ticket, a.2.Bears ticket → ¬b.2.Bears ticket) := by
  induction h with
  | nil => exact ⟨List.forall_mem_nil _, .nil⟩
  | @cons post ticket posts spent hsends _ ih =>
    obtain ⟨hnew, hrest⟩ := List.nodup_cons.1 hspent
    obtain ⟨hothers, hpairs⟩ := ih hrest
    constructor
    · intro other hother
      rcases List.mem_cons.1 hother with rfl | hother
      · exact ⟨ticket, List.mem_cons_self, hsends⟩
      · obtain ⟨ticket', hticket', hsends'⟩ := hothers other hother
        exact ⟨ticket', List.mem_cons_of_mem _ hticket', hsends'⟩
    · refine .cons (fun other hother ticket' hpost hother' => ?_) hpairs
      obtain ⟨own, hown, hsends'⟩ := hothers other hother
      have hfirst : ticket' = ticket := hpost.unique hsends.bears
      have hsecond : ticket' = own := hother'.unique hsends'.bears
      rw [← hsecond, hfirst] at hown
      exact hnew hown

/-- Every delivery of a fleet is numbered. Whatever is posted is the message of a row or a dead letter of one, and its
text shows the event and the attempt. No two messages that are posted in a run, by whichever relays, show the same event
and attempt, and neither do two dead letters. The claims of a row, one after the other, return it with the attempts one,
two, three and so on. -/
theorem deliveries_numbered (relays : ι → Relay) (moves : List (Move ι)) :
    (∀ post ∈ posts relays {} moves, ∃ ticket, (relays post.1).Sends post.2 ticket ∧ post.2.Bears ticket) ∧
    (posts relays {} moves).Pairwise (fun a b => ∀ ticket, a.2.Bears ticket → ¬b.2.Bears ticket) ∧
    (run relays moves).table = Table.run {} (requests relays {} moves) ∧
    ∀ id, Table.attemptsOn id {} (requests relays {} moves) =
      (List.range (Table.claimsOn id {} (requests relays {} moves)).length).map fun (k : Nat) => (k : Int) + 1 := by
  obtain ⟨spent, unused, hsends, hsolvent⟩ := (solvent_start relays).run moves
  have hspent : spent.Nodup := by
    have hused := hsolvent.allotted.used_once
    rwa [Multiset.zero_add] at hused
  obtain ⟨hposts, hpairs⟩ := pairwise_of_sends hsends hspent
  refine ⟨fun post hpost => ?_, hpairs, table_run relays {} moves, fun id => ?_⟩
  · obtain ⟨ticket, -, hticket⟩ := hposts post hpost
    exact ⟨ticket, hticket, hticket.bears⟩
  · rw [Table.attemptsOn_eq]
    apply List.map_congr_left
    intro k _
    change 0 + (k : Int) + 1 = k + 1
    omega

/-- Two relays post the message of one row, the second as its second attempt. -/
theorem rivals_numbered :
    let moves := Chronicle.rivalry ++ [.proceed false {}] ++ Chronicle.publishes true ++ Chronicle.publishes false
    let posted := posts Chronicle.rivals {} moves
    posted.map Prod.fst = [true, false] ∧
    (∀ post ∈ posted, ∃ ticket, (Chronicle.rivals post.1).Sends post.2 ticket ∧ post.2.Bears ticket) ∧
    posted.Pairwise (fun a b => ∀ ticket, a.2.Bears ticket → ¬b.2.Bears ticket) ∧
    Table.attemptsOn 1 {} (requests Chronicle.rivals {} moves) = [1, 2] := by
  intro moves posted
  obtain ⟨hsends, hpairs, -, hattempts⟩ := deliveries_numbered Chronicle.rivals moves
  have hclaims : (Table.claimsOn 1 {} (requests Chronicle.rivals {} moves)).length = 2 := by decide +kernel
  refine ⟨by decide +kernel, hsends, hpairs, ?_⟩
  rw [hattempts, hclaims]
  rfl

end Fleet

end Outbox.Relay
