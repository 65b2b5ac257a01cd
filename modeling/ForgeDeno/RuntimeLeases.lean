import ForgeDeno.PoolLeases
import ForgeDeno.RuntimeSteps

namespace ForgeDeno

open ListRules InstancePool List

/-- The call has asked for a lease with this ticket and has not gone on since. -/
def Call.awaits (ticket : Nat) (call : Call) : Bool :=
  match call.phase with
  | .leasing request => request.ticket = ticket
  | _ => false

def DispatchPhase.isRunning : DispatchPhase → Bool
  | .running => true
  | _ => false

def DispatchPhase.tainted : DispatchPhase → Bool
  | .threw _ => true
  | .running => false
  | .releasing verdict _ | .finished verdict _ => verdict.discards

def Dispatch.granted (d : Dispatch) : InstanceLease := ⟨d.lease.ticket, d.entry, d.grantedAt⟩

structure Booked (calls : List Call) (dispatches : List Dispatch) (p : InstancePool) : Prop where
  queued : ∀ w ∈ p.waiters, ∃ call : Call, calls[w.signal]? = some call ∧ call.awaits w.ticket = true
  owner : ∀ l ∈ p.held,
    (∃ (k : Nat) (call : Call), calls[k]? = some call ∧ call.awaits l.ticket = true) ∨
      ∃ (k : Nat) (d : Dispatch), dispatches[k]? = some d ∧ d.phase.isRunning = true ∧ d.granted = l
  running : ∀ (k : Nat) (d : Dispatch), dispatches[k]? = some d → d.phase.isRunning = true → d.granted ∈ p.held
  settled : ∀ (k : Nat) (d : Dispatch), dispatches[k]? = some d →
    d.phase.isRunning = false → d.granted ∈ p.returned
  tainted : ∀ (k : Nat) (d : Dispatch), dispatches[k]? = some d → d.phase.tainted = true → d.entry ∈ p.gone
  oneCall : ∀ (i j : Nat) (a b : Call) (ticket : Nat), calls[i]? = some a → calls[j]? = some b →
    a.awaits ticket = true → b.awaits ticket = true → i = j
  oneDispatch : ∀ (i j : Nat) (a b : Dispatch), dispatches[i]? = some a →
    dispatches[j]? = some b → a.lease.ticket = b.lease.ticket → i = j
  apart : ∀ (i j : Nat) (call : Call) (d : Dispatch), calls[i]? = some call →
    dispatches[j]? = some d → call.awaits d.lease.ticket = false
  issued : ∀ (k : Nat) (call : Call) (ticket : Nat), calls[k]? = some call →
    call.awaits ticket = true → ticket < p.tickets

structure Leases (r : GoforgeWasmRuntime) : Prop where
  unloaded : r.pool = none → (∀ call ∈ r.calls, ∀ ticket, call.awaits ticket = false) ∧ r.dispatches = []
  booked : ∀ p, r.pool = some p → p.Sound ∧ Booked r.calls r.dispatches p
  verifying : ∀ startedAt, (r.load = .idle ∨ r.load = .verifying startedAt) → r.pool = none

theorem awaits_of_phase {call : Call} {phase : CallPhase} (eq : call.phase = phase)
    (other : ∀ request, phase ≠ .leasing request) (ticket : Nat) : call.awaits ticket = false := by
  unfold Call.awaits
  split
  · next request leasing => exact absurd (eq.symm.trans leasing) (other request)
  · rfl

theorem awaits_leasing {call : Call} {request : LeaseRequest} (phase : call.phase = .leasing request)
    (ticket : Nat) : call.awaits ticket = decide (request.ticket = ticket) := by
  unfold Call.awaits
  rw [phase]

namespace Booked

variable {calls : List Call} {dispatches : List Dispatch} {p q : InstancePool} {signals : Signals}
  {c : Nat} {call after : Call}

theorem mem_leases (h : Booked calls dispatches p) {k : Nat} {d : Dispatch}
    (there : dispatches[k]? = some d) : d.granted ∈ p.leases := by
  cases active : d.phase.isRunning with
  | true => exact mem_append_left _ (h.running k d there active)
  | false => exact mem_append_right _ (h.settled k d there active)

theorem grants (h : Booked calls dispatches p) (grants : p.Grants q)
    (gone : ∀ id ∈ p.gone, id ∈ q.gone) : Booked calls dispatches q where
  queued w mem := h.queued w (grants.waiters w mem)
  owner l mem := by
    rcases grants.new l mem with old | ⟨_, w, waits, same⟩
    · exact h.owner l old
    · obtain ⟨call, here, awaits⟩ := h.queued w waits
      exact .inl ⟨w.signal, call, here, same ▸ awaits⟩
  running k d there active := grants.kept _ (h.running k d there active)
  settled k d there past := grants.returned ▸ h.settled k d there past
  tainted k d there bad := gone _ (h.tainted k d there bad)
  oneCall := h.oneCall
  oneDispatch := h.oneDispatch
  apart := h.apart
  issued k call ticket here awaits := grants.tickets ▸ h.issued k call ticket here awaits

theorem flows (h : Booked calls dispatches p) (steps : PoolFlows signals p q) : Booked calls dispatches q :=
  h.grants (grants_of_flows steps) fun _ mem =>
    steps.moves.invariant (fun _ _ => gone_move) mem

theorem setCall (h : Booked calls dispatches p) (here : calls[c]? = some call)
    (same : ∀ ticket, after.awaits ticket = call.awaits ticket) : Booked (calls.set c after) dispatches p := by
  have forth {k : Nat} {other : Call} (there : calls[k]? = some other) :
      ∃ other', (calls.set c after)[k]? = some other' ∧ ∀ ticket, other'.awaits ticket = other.awaits ticket := by
    by_cases at_c : k = c
    · subst at_c
      cases here.symm.trans there
      exact ⟨after, (getElem?_set_iff here).mpr (.inl ⟨rfl, rfl⟩), same⟩
    · exact ⟨other, (getElem?_set_iff here).mpr (.inr ⟨at_c, there⟩), fun _ => rfl⟩
  have back {k : Nat} {other' : Call} (there : (calls.set c after)[k]? = some other') :
      ∃ other, calls[k]? = some other ∧ ∀ ticket, other'.awaits ticket = other.awaits ticket := by
    rcases (getElem?_set_iff here).mp there with ⟨rfl, rfl⟩ | ⟨_, there⟩
    · exact ⟨call, here, same⟩
    · exact ⟨other', there, fun _ => rfl⟩
  refine ⟨fun w mem => ?_, fun l mem => ?_, h.running, h.settled, h.tainted, ?_, h.oneDispatch, ?_, ?_⟩
  · obtain ⟨other, there, awaits⟩ := h.queued w mem
    obtain ⟨other', there', eq⟩ := forth there
    exact ⟨other', there', (eq _).trans awaits⟩
  · rcases h.owner l mem with ⟨k, other, there, awaits⟩ | running
    · obtain ⟨other', there', eq⟩ := forth there
      exact .inl ⟨k, other', there', (eq _).trans awaits⟩
    · exact .inr running
  · intro i j a' b' ticket ha hb left right
    obtain ⟨a, ha, eq_a⟩ := back ha
    obtain ⟨b, hb, eq_b⟩ := back hb
    exact h.oneCall i j a b ticket ha hb ((eq_a _).symm.trans left) ((eq_b _).symm.trans right)
  · intro i j other' d there' at_d
    obtain ⟨other, there, eq⟩ := back there'
    exact (eq _).trans (h.apart i j other d there at_d)
  · intro k other' ticket there' awaits
    obtain ⟨other, there, eq⟩ := back there'
    exact h.issued k other ticket there ((eq _).symm.trans awaits)

theorem addCall (h : Booked calls dispatches p) (idle : ∀ ticket, call.awaits ticket = false) :
    Booked (calls ++ [call]) dispatches p := by
  have back {k : Nat} {other : Call} {ticket : Nat} (there : (calls ++ [call])[k]? = some other)
      (awaits : other.awaits ticket = true) : calls[k]? = some other := by
    rcases getElem?_concat_iff.mp there with old | ⟨_, rfl⟩
    · exact old
    · rw [idle ticket] at awaits
      cases awaits
  refine ⟨fun w mem => ?_, fun l mem => ?_, h.running, h.settled, h.tainted, ?_, h.oneDispatch, ?_, ?_⟩
  · obtain ⟨other, there, awaits⟩ := h.queued w mem
    exact ⟨other, getElem?_concat_iff.mpr (.inl there), awaits⟩
  · rcases h.owner l mem with ⟨k, other, there, awaits⟩ | running
    · exact .inl ⟨k, other, getElem?_concat_iff.mpr (.inl there), awaits⟩
    · exact .inr running
  · intro i j a b ticket ha hb left right
    exact h.oneCall i j a b ticket (back ha left) (back hb right) left right
  · intro i j other d there at_d
    cases awaits : other.awaits d.lease.ticket with
    | false => rfl
    | true => exact awaits.symm.trans (h.apart i j other d (back there awaits) at_d)
  · intro k other ticket there awaits
    exact h.issued k other ticket (back there awaits) awaits

theorem awaiting_set (here : calls[c]? = some call) {k n : Nat} {other : Call} (silent : call.awaits n = false)
    (there : calls[k]? = some other) (awaits : other.awaits n = true) : (calls.set c after)[k]? = some other := by
  refine (getElem?_set_iff here).mpr (.inr ⟨fun at_c => ?_, there⟩)
  rw [at_c] at there
  cases here.symm.trans there
  cases silent.symm.trans awaits

theorem awaiting_before (here : calls[c]? = some call) (idle : ∀ n, after.awaits n = false) {k n : Nat}
    {other : Call} (there : (calls.set c after)[k]? = some other) (awaits : other.awaits n = true) :
    k ≠ c ∧ calls[k]? = some other := by
  rcases (getElem?_set_iff here).mp there with ⟨_, rfl⟩ | past
  · rw [idle n] at awaits
    cases awaits
  · exact past

section

variable (h : Booked calls dispatches p)

include h

theorem leave (here : calls[c]? = some call) {ticket : Nat}
    (awaited : ∀ other, call.awaits other = decide (ticket = other))
    (unheld : ∀ l ∈ p.held, l.ticket ≠ ticket) (unqueued : ∀ w ∈ p.waiters, w.ticket ≠ ticket)
    (idle : ∀ other, after.awaits other = false) : Booked (calls.set c after) dispatches p := by
  have forth {k : Nat} {other : Call} {n : Nat} (there : calls[k]? = some other)
      (awaits : other.awaits n = true) (different : n ≠ ticket) :
      (calls.set c after)[k]? = some other :=
    awaiting_set here ((awaited n).trans (decide_eq_false different.symm)) there awaits
  have back {k : Nat} {other : Call} {n : Nat} (there : (calls.set c after)[k]? = some other)
      (awaits : other.awaits n = true) : calls[k]? = some other := (awaiting_before here idle there awaits).2
  refine ⟨fun w mem => ?_, fun l mem => ?_, h.running, h.settled, h.tainted, ?_, h.oneDispatch, ?_, ?_⟩
  · obtain ⟨other, there, awaits⟩ := h.queued w mem
    exact ⟨other, forth there awaits (unqueued w mem), awaits⟩
  · rcases h.owner l mem with ⟨k, other, there, awaits⟩ | running
    · exact .inl ⟨k, other, forth there awaits (unheld l mem), awaits⟩
    · exact .inr running
  · intro i j a b n ha hb left right
    exact h.oneCall i j a b n (back ha left) (back hb right) left right
  · intro i j other d there at_d
    cases awaits : other.awaits d.lease.ticket with
    | false => rfl
    | true => exact awaits.symm.trans (h.apart i j other d (back there awaits) at_d)
  · intro k other n there awaits
    exact h.issued k other n (back there awaits) awaits

theorem returnAwaited {l : InstanceLease}
    (returns : InstancePool.Returns l p q) (gone : ∀ id ∈ p.gone, id ∈ q.gone)
    (here : calls[c]? = some call) (awaits : call.awaits l.ticket = true) : Booked calls dispatches q where
  queued w mem := h.queued w (returns.waiters ▸ mem)
  owner m mem := h.owner m (mem_of_mem_erase (returns.held ▸ mem))
  running k d there active := by
    have held := h.running k d there active
    have other : d.granted ≠ l := by
      intro same
      have apart := h.apart c k call d here there
      have ticket : d.lease.ticket = l.ticket := congrArg InstanceLease.ticket same
      rw [ticket, awaits] at apart
      cases apart
    rw [returns.held]
    exact (mem_erase_of_ne other).mpr held
  settled k d there past := by
    rw [returns.returned]
    exact mem_cons_of_mem l (h.settled k d there past)
  tainted k d there bad := gone _ (h.tainted k d there bad)
  oneCall := h.oneCall
  oneDispatch := h.oneDispatch
  apart := h.apart
  issued k call ticket here awaits := returns.tickets ▸ h.issued k call ticket here awaits

theorem handOver (here : calls[c]? = some call) {d : Dispatch}
    (awaited : ∀ other, call.awaits other = decide (d.lease.ticket = other))
    (unqueued : ∀ w ∈ p.waiters, w.ticket ≠ d.lease.ticket)
    (active : d.phase.isRunning = true → ∀ l ∈ p.held, l.ticket = d.lease.ticket → d.granted = l)
    (past : d.phase.isRunning = false → ∀ l ∈ p.held, l.ticket ≠ d.lease.ticket)
    (held : d.phase.isRunning = true → d.granted ∈ p.held)
    (returned : d.phase.isRunning = false → d.granted ∈ p.returned)
    (gone : d.phase.tainted = true → d.entry ∈ p.gone) (idle : ∀ other, after.awaits other = false) :
    Booked (calls.set c after) (dispatches ++ [d]) p := by
  have forth {k : Nat} {other : Call} {n : Nat} (there : calls[k]? = some other)
      (awaits : other.awaits n = true) (different : n ≠ d.lease.ticket) :
      (calls.set c after)[k]? = some other :=
    awaiting_set here ((awaited n).trans (decide_eq_false different.symm)) there awaits
  have back {k : Nat} {other : Call} {n : Nat} (there : (calls.set c after)[k]? = some other)
      (awaits : other.awaits n = true) : k ≠ c ∧ calls[k]? = some other := awaiting_before here idle there awaits
  have mine : call.awaits d.lease.ticket = true := by
    rw [awaited]
    exact decide_eq_true rfl
  refine ⟨fun w mem => ?_, fun l mem => ?_, fun k x there => ?_, fun k x there => ?_,
    fun k x there => ?_, ?_, ?_, ?_, ?_⟩
  · obtain ⟨other, there, awaits⟩ := h.queued w mem
    exact ⟨other, forth there awaits (unqueued w mem), awaits⟩
  · by_cases same : l.ticket = d.lease.ticket
    · cases run : d.phase.isRunning with
      | true =>
        exact .inr ⟨dispatches.length, d, getElem?_concat_iff.mpr (.inr ⟨rfl, rfl⟩),
          run, active run l mem same⟩
      | false => exact absurd same (past run l mem)
    · rcases h.owner l mem with ⟨k, other, there, awaits⟩ | ⟨k, x, there, running, eq⟩
      · exact .inl ⟨k, other, forth there awaits same, awaits⟩
      · exact .inr ⟨k, x, getElem?_concat_iff.mpr (.inl there), running, eq⟩
  · rcases getElem?_concat_iff.mp there with old | ⟨_, rfl⟩
    · exact h.running k x old
    · exact held
  · rcases getElem?_concat_iff.mp there with old | ⟨_, rfl⟩
    · exact h.settled k x old
    · exact returned
  · rcases getElem?_concat_iff.mp there with old | ⟨_, rfl⟩
    · exact h.tainted k x old
    · exact gone
  · intro i j a b n ha hb left right
    exact h.oneCall i j a b n (back ha left).2 (back hb right).2 left right
  · have fresh {k : Nat} {x : Dispatch} (there : dispatches[k]? = some x) :
        x.lease.ticket ≠ d.lease.ticket := by
      intro same
      have apart := h.apart c k call x here there
      rw [same, mine] at apart
      cases apart
    intro i j a b ha hb same
    rcases getElem?_concat_iff.mp ha with old_a | ⟨at_i, eq_a⟩
    · rcases getElem?_concat_iff.mp hb with old_b | ⟨_, eq_b⟩
      · exact h.oneDispatch i j a b old_a old_b same
      · exact absurd (eq_b ▸ same) (fresh old_a)
    · rcases getElem?_concat_iff.mp hb with old_b | ⟨at_j, _⟩
      · exact absurd (eq_a ▸ same.symm) (fresh old_b)
      · exact at_i.trans at_j.symm
  · intro i j other x there at_x
    cases awaits : other.awaits x.lease.ticket with
    | false => rfl
    | true =>
      obtain ⟨away, there⟩ := back there awaits
      rcases getElem?_concat_iff.mp at_x with old | ⟨_, rfl⟩
      · exact awaits.symm.trans (h.apart i j other x there old)
      · exact absurd (h.oneCall i c other call _ there here awaits mine) away
  · intro k other n there awaits
    exact h.issued k other n (back there awaits).2 awaits

theorem setDispatch {k : Nat} {d new : Dispatch}
    (there : dispatches[k]? = some d) (lease : new.lease = d.lease)
    (granted : new.granted = d.granted) (past : d.phase.isRunning = false)
    (still : new.phase.isRunning = false) (gone : new.phase.tainted = true → new.entry ∈ p.gone) :
    Booked calls (dispatches.set k new) p := by
  have back {j : Nat} {x : Dispatch} (at_j : (dispatches.set k new)[j]? = some x) :
      ∃ y, dispatches[j]? = some y ∧ x.lease = y.lease := by
    rcases (getElem?_set_iff there).mp at_j with ⟨rfl, rfl⟩ | ⟨_, old⟩
    · exact ⟨d, there, lease⟩
    · exact ⟨x, old, rfl⟩
  refine ⟨h.queued, fun l mem => ?_, fun j x at_j active => ?_, fun j x at_j _ => ?_,
    fun j x at_j bad => ?_, h.oneCall, fun i j a b ha hb same => ?_, fun i j call x here at_j => ?_,
    h.issued⟩
  · rcases h.owner l mem with waits | ⟨j, x, at_j, running, eq⟩
    · exact .inl waits
    · refine .inr ⟨j, x, (getElem?_set_iff there).mpr (.inr ⟨fun same => ?_, at_j⟩), running, eq⟩
      rw [same] at at_j
      cases there.symm.trans at_j
      cases past.symm.trans running
  · rcases (getElem?_set_iff there).mp at_j with ⟨_, rfl⟩ | ⟨_, old⟩
    · cases still.symm.trans active
    · exact h.running j x old active
  · rcases (getElem?_set_iff there).mp at_j with ⟨_, rfl⟩ | ⟨_, old⟩
    · exact granted ▸ h.settled k d there past
    · exact h.settled j x old (by assumption)
  · rcases (getElem?_set_iff there).mp at_j with ⟨_, rfl⟩ | ⟨_, old⟩
    · exact gone bad
    · exact h.tainted j x old bad
  · obtain ⟨a', ha, eq_a⟩ := back ha
    obtain ⟨b', hb, eq_b⟩ := back hb
    exact h.oneDispatch i j a' b' ha hb (by rw [← eq_a, ← eq_b, same])
  · obtain ⟨y, old, eq⟩ := back at_j
    rw [eq]
    exact h.apart i j call y here old

theorem settle (nodup : p.held.Nodup) {k : Nat} {d new : Dispatch}
    (there : dispatches[k]? = some d) (returns : InstancePool.Returns d.granted p q)
    (mono : ∀ id ∈ p.gone, id ∈ q.gone) (lease : new.lease = d.lease)
    (granted : new.granted = d.granted) (still : new.phase.isRunning = false)
    (gone : new.phase.tainted = true → new.entry ∈ q.gone) : Booked calls (dispatches.set k new) q := by
  have back {j : Nat} {x : Dispatch} (at_j : (dispatches.set k new)[j]? = some x) :
      ∃ y, dispatches[j]? = some y ∧ x.lease = y.lease := by
    rcases (getElem?_set_iff there).mp at_j with ⟨rfl, rfl⟩ | ⟨_, old⟩
    · exact ⟨d, there, lease⟩
    · exact ⟨x, old, rfl⟩
  refine ⟨fun w mem => h.queued w (returns.waiters ▸ mem), fun l mem => ?_,
    fun j x at_j active => ?_, fun j x at_j past => ?_, fun j x at_j bad => ?_, h.oneCall,
    fun i j a b ha hb same => ?_, fun i j call x here at_j => ?_,
    fun j call ticket here awaits => returns.tickets ▸ h.issued j call ticket here awaits⟩
  · rw [returns.held] at mem
    obtain ⟨other, held⟩ := nodup.mem_erase_iff.mp mem
    rcases h.owner l held with waits | ⟨j, x, at_j, running, eq⟩
    · exact .inl waits
    · refine .inr ⟨j, x, (getElem?_set_iff there).mpr (.inr ⟨fun same => ?_, at_j⟩), running, eq⟩
      rw [same] at at_j
      cases there.symm.trans at_j
      exact other eq.symm
  · rcases (getElem?_set_iff there).mp at_j with ⟨_, rfl⟩ | ⟨away, old⟩
    · cases still.symm.trans active
    · have other : x.granted ≠ d.granted := fun same =>
        away (h.oneDispatch j k x d old there (congrArg InstanceLease.ticket same))
      rw [returns.held]
      exact (mem_erase_of_ne other).mpr (h.running j x old active)
  · rw [returns.returned]
    rcases (getElem?_set_iff there).mp at_j with ⟨_, rfl⟩ | ⟨_, old⟩
    · exact granted ▸ mem_cons_self
    · exact mem_cons_of_mem _ (h.settled j x old past)
  · rcases (getElem?_set_iff there).mp at_j with ⟨_, rfl⟩ | ⟨_, old⟩
    · exact gone bad
    · exact mono _ (h.tainted j x old bad)
  · obtain ⟨a', ha, eq_a⟩ := back ha
    obtain ⟨b', hb, eq_b⟩ := back hb
    exact h.oneDispatch i j a' b' ha hb (by rw [← eq_a, ← eq_b, same])
  · obtain ⟨y, old, eq⟩ := back at_j
    rw [eq]
    exact h.apart i j call y here old

theorem ask (sound : p.Sound) (here : calls[c]? = some call)
    (idle : ∀ ticket, call.awaits ticket = false)
    (awaited : ∀ ticket, after.awaits ticket = decide (p.tickets = ticket))
    (held : q.held = p.held) (returned : q.returned = p.returned) (gone : q.gone = p.gone)
    (tickets : q.tickets = p.tickets + 1) (waiters : ∀ w ∈ q.waiters, w ∈ p.waiters ∨ w = ⟨p.tickets, c⟩) :
    Booked (calls.set c after) dispatches q := by
  have forth {k : Nat} {other : Call} {n : Nat} (there : calls[k]? = some other)
      (awaits : other.awaits n = true) : (calls.set c after)[k]? = some other :=
    awaiting_set here (idle n) there awaits
  have mine : (calls.set c after)[c]? = some after :=
    (getElem?_set_iff here).mpr (.inl ⟨rfl, rfl⟩)
  have unissued {k : Nat} {d : Dispatch} (there : dispatches[k]? = some d) :
      d.lease.ticket < p.tickets :=
    sound.accountable.issued sound.ticketed (h.mem_leases there)
  refine ⟨fun w mem => ?_, fun l mem => ?_, held ▸ h.running, returned ▸ h.settled,
    gone ▸ h.tainted, ?_, h.oneDispatch, ?_, ?_⟩
  · rcases waiters w mem with old | rfl
    · obtain ⟨other, there, awaits⟩ := h.queued w old
      exact ⟨other, forth there awaits, awaits⟩
    · exact ⟨after, mine, by rw [awaited]; exact decide_eq_true rfl⟩
  · rcases h.owner l (held ▸ mem) with ⟨k, other, there, awaits⟩ | running
    · exact .inl ⟨k, other, forth there awaits, awaits⟩
    · exact .inr running
  · intro i j a b n ha hb left right
    rcases (getElem?_set_iff here).mp ha with ⟨at_i, eq_a⟩ | ⟨_, old_a⟩
    · rcases (getElem?_set_iff here).mp hb with ⟨at_j, _⟩ | ⟨_, old_b⟩
      · exact at_i.trans at_j.symm
      · rw [eq_a, awaited] at left
        have bound := h.issued j b n old_b right
        have same := of_decide_eq_true left
        omega
    · rcases (getElem?_set_iff here).mp hb with ⟨_, eq_b⟩ | ⟨_, old_b⟩
      · rw [eq_b, awaited] at right
        have bound := h.issued i a n old_a left
        have same := of_decide_eq_true right
        omega
      · exact h.oneCall i j a b n old_a old_b left right
  · intro i j other d there at_d
    rcases (getElem?_set_iff here).mp there with ⟨_, eq⟩ | ⟨_, old⟩
    · rw [eq, awaited]
      exact decide_eq_false (Nat.ne_of_gt (unissued at_d))
    · exact h.apart i j other d old at_d
  · intro k other n there awaits
    rw [tickets]
    rcases (getElem?_set_iff here).mp there with ⟨_, eq⟩ | ⟨_, old⟩
    · rw [eq, awaited] at awaits
      have same := of_decide_eq_true awaits
      omega
    · exact Nat.lt_succ_of_lt (h.issued k other n old awaits)

end

end Booked

namespace GoforgeWasmRuntime

variable {r t : GoforgeWasmRuntime} {e : RuntimeEvent} {c : Nat} {call after : Call}
  {seams : Seams} {p q : InstancePool}

theorem leases_of_same (h : Leases r) (calls : t.calls = r.calls)
    (dispatches : t.dispatches = r.dispatches) (pool : t.pool = r.pool)
    (verifying : ∀ startedAt, (t.load = .idle ∨ t.load = .verifying startedAt) → r.pool = none) : Leases t where
  unloaded := by rw [pool, calls, dispatches]; exact h.unloaded
  booked := by rw [pool, calls, dispatches]; exact h.booked
  verifying := by rw [pool]; exact verifying

theorem leases_of_pool (h : Leases r) (before : r.pool = some p) (pool : t.pool = some q)
    (load : t.load = r.load) (sound : q.Sound) (booked : Booked t.calls t.dispatches q) : Leases t where
  unloaded empty := by rw [pool] at empty; cases empty
  booked p' some_pool := by
    cases pool.symm.trans some_pool
    exact ⟨sound, booked⟩
  verifying startedAt early := by
    rw [load] at early
    have none_yet := h.verifying startedAt early
    cases before.symm.trans none_yet

theorem leases_putCall (h : Leases r) (here : r.calls[c]? = some call)
    (same : ∀ ticket, after.awaits ticket = call.awaits ticket) : Leases (r.putCall c after) where
  unloaded empty := by
    obtain ⟨idle, none_yet⟩ := h.unloaded empty
    refine ⟨fun other mem ticket => ?_, none_yet⟩
    rcases mem_or_eq_of_mem_set mem with old | rfl
    · exact idle other old ticket
    · exact (same ticket).trans (idle call (mem_of_getElem? here) ticket)
  booked p some_pool :=
    ⟨(h.booked p some_pool).1, (h.booked p some_pool).2.setCall here same⟩
  verifying := h.verifying

theorem leases_setIdle {before phase : CallPhase} (h : Leases r) (here : r.calls[c]? = some call)
    (eq : call.phase = before) (was : ∀ request, before ≠ .leasing request)
    (idle : ∀ request, phase ≠ .leasing request) : Leases (r.setPhase c call phase) := by
  refine leases_putCall h here fun ticket => ?_
  rw [awaits_of_phase eq was, awaits_of_phase rfl idle]

theorem leases_acquire (h : Leases r) (some_pool : r.pool = some p)
    (here : r.calls[c]? = some call) (phase : call.phase = .starting) (requestJson : JsString)
    (state : AbiExecutionStateV1) : Leases (r.acquireLease c call p requestJson state) := by
  obtain ⟨sound, booked⟩ := h.booked p some_pool
  have idle := awaits_of_phase phase (by simp)
  have moved : (p.acquire r.signals c).Sound := sound.moves (acquire_moves c)
  refine leases_of_pool h some_pool rfl rfl moved ?_
  unfold acquireLease
  simp only [setPhase, putCall]
  rcases @InstancePool.acquire_cases r.signals p c with ⟨cause, eq⟩ | ⟨alive, live, eq⟩
  · rw [eq]
    exact booked.ask sound here idle (fun _ => rfl) rfl rfl rfl rfl fun w mem => .inl mem
  · rw [eq]
    refine Booked.flows (booked.ask (q := p.enqueue c) sound here idle
      (fun _ => rfl) rfl rfl rfl rfl fun w mem => ?_)
      pump_flows
    rcases mem_append.mp mem with old | new
    · exact .inl old
    · exact .inr (mem_singleton.mp new)

variable {request : LeaseRequest} {lease : InstanceLease}

section

variable (h : Leases r) (some_pool : r.pool = some p) (here : r.calls[c]? = some call)

include h some_pool here

theorem leases_release
    (phase : call.phase = .leasing request)
    (found : p.held.find? (fun l => l.ticket = request.ticket) = some lease) :
    let q := p.release r.signals lease.ticket true
    q.Sound ∧ Booked r.calls r.dispatches q ∧ lease ∈ q.returned ∧ lease.entry ∈ q.gone ∧
      lease.ticket = request.ticket := by
  obtain ⟨sound, booked⟩ := h.booked p some_pool
  have same : lease.ticket = request.ticket := by simpa using find?_some found
  have refound : p.held.find? (fun l => l.ticket = lease.ticket) = some lease := by
    rw [same]
    exact found
  obtain ⟨q, returns, move, flows, gone, _⟩ :=
    release_returns r.signals sound.owned refound true
  have awaits : call.awaits lease.ticket = true := by
    rw [awaits_leasing phase, same]
    exact decide_eq_true rfl
  have given := booked.returnAwaited returns (fun _ mem => gone_move mem move) here
    awaits
  have grants := grants_of_flows flows
  refine ⟨(sound.move move).moves flows.moves, given.flows flows, ?_, ?_, same⟩
  · rw [grants.returned, returns.returned]
    exact mem_cons_self
  · exact flows.moves.invariant (fun _ _ => gone_move) (gone rfl)

theorem leases_undispatch (phase : call.phase = .leasing request)
    (found : p.held.find? (fun l => l.ticket = request.ticket) = some lease) (cause : Thrown) :
    Leases (r.undispatch c call p lease cause) := by
  obtain ⟨sound, booked, returned, _, same⟩ := leases_release h some_pool here phase found
  refine leases_of_pool h some_pool rfl rfl sound ?_
  refine booked.leave here (awaits_leasing phase) (fun l held => ?_) (fun w waits => ?_) (fun _ => rfl)
  · rw [← same]
    exact sound.accountable.held_apart held returned
  · rw [← same]
    exact sound.accountable.not_waiting sound.ticketed (mem_append_right _ returned) waits

theorem leases_threw (phase : call.phase = .leasing request)
    (found : p.held.find? (fun l => l.ticket = request.ticket) = some lease) (fault : Thrown) :
    Leases ((r.addDispatch ⟨c, call.attempt, call.requestId, request, lease.entry,
      lease.grantedAt, .threw fault⟩).undispatch c call p lease fault) := by
  obtain ⟨sound, booked, returned, gone, same⟩ := leases_release h some_pool here phase found
  refine leases_of_pool h some_pool rfl rfl sound ?_
  refine booked.handOver here (awaits_leasing phase) (fun w waits => ?_) nofun
    (fun _ l held => ?_) nofun (fun _ => ?_) (fun _ => gone) (fun _ => rfl)
  · have apart := sound.accountable.not_waiting sound.ticketed (mem_append_right _ returned)
      waits
    rw [same] at apart
    exact apart
  · have apart := sound.accountable.held_apart held returned
    rw [same] at apart
    exact apart
  · simp only [Dispatch.granted, ← same]
    exact returned

theorem leases_dispatch (phase : call.phase = .leasing request)
    (found : p.held.find? (fun l => l.ticket = request.ticket) = some lease) :
    Leases ((r.addDispatch ⟨c, call.attempt, call.requestId, request, lease.entry,
      lease.grantedAt, .running⟩).setPhase c call (.dispatched r.dispatches.length)) := by
  obtain ⟨sound, booked⟩ := h.booked p some_pool
  have same : lease.ticket = request.ticket := by simpa using find?_some found
  have held := mem_of_find?_eq_some found
  have leased : lease ∈ p.leases := mem_append_left _ held
  have granted : InstanceLease.mk request.ticket lease.entry lease.grantedAt = lease := by
    rw [← same]
  refine leases_of_pool h some_pool some_pool rfl sound ?_
  refine booked.handOver here (awaits_leasing phase) (fun w waits => ?_) (fun _ l mem eq => ?_)
    nofun (fun _ => ?_) nofun
    nofun (fun _ => rfl)
  · have apart := sound.accountable.not_waiting sound.ticketed leased waits
    rw [same] at apart
    exact apart
  · have only := sound.accountable.lease_unique (mem_append_left _ mem) leased
      (eq.trans same.symm)
    exact granted.trans only.symm
  · exact granted ▸ held

theorem leases_refuse {w : PoolWaiter} {cause : Thrown}
    (phase : call.phase = .leasing request) (rejected : .rejected w cause ∈ p.log)
    (ticket : w.ticket = request.ticket) : Leases (r.setPhase c call (.returned (.error cause))) := by
  obtain ⟨sound, booked⟩ := h.booked p some_pool
  refine leases_of_pool h some_pool some_pool rfl sound ?_
  refine booked.leave here (awaits_leasing phase) (fun l held same => ?_) (fun v waits same => ?_) (fun _ => rfl)
  · exact sound.accountable.not_rejected sound.ticketed (mem_append_left _ held) rejected
      (ticket.trans same.symm)
  · have settled : 0 < settlements v.ticket p.log :=
      countP_pos_iff.mpr ⟨_, rejected, by simp [PoolRecord.settles, ticket, same]⟩
    rw [sound.ticketed.waiting v waits] at settled
    exact Nat.lt_irrefl 0 settled

end

theorem runs_idle {phase : CallPhase} (runs : phase.runs = true) (request : LeaseRequest) :
    phase ≠ .leasing request := by
  rintro rfl
  cases runs

theorem leases_finish (h : Leases r) (here : r.calls[c]? = some call)
    (runs : call.phase.runs = true) (outcome : Except Thrown JsValue) : Leases (r.finish c call outcome) := by
  have idle := awaits_of_phase rfl (runs_idle runs)
  have set : Leases (r.putCall c { call with
      phase := .settled outcome, scope := { call.scope with disposed := true } }) :=
    leases_putCall h here fun ticket => (idle ticket).symm
  unfold finish
  simp only
  split_ifs
  · exact leases_of_same set rfl rfl rfl set.verifying
  · exact set

theorem leases_callMove (h : Leases r) (move : CallMove c seams r t) : Leases t := by
  cases move with
  | note => exact leases_of_same h rfl rfl rfl h.verifying
  | begin call plan started here after =>
    have idle := awaits_of_phase rfl (runs_idle (begins_runs after))
    exact leases_putCall h here fun ticket => (idle ticket).symm
  | reject call cause here phase => exact leases_setIdle h here phase (by simp) (by simp)
  | acquire call plan pool requestJson state here phase component planned some_pool =>
    exact leases_acquire h some_pool here phase requestJson state
  | select call plan name adapter here phase =>
    have added : Leases (r.addExecution ⟨c, call.attempt, adapter, plan.request, .scheduled⟩) :=
      leases_of_same h rfl rfl rfl h.verifying
    refine leases_setIdle added here phase (by simp) fun request => ?_
    cases call.scope.reason <;> simp
  | refuseLease call request pool w cause here phase some_pool rejected ticket =>
    exact leases_refuse h some_pool here phase rejected ticket
  | undispatch call request pool lease reason here phase some_pool found =>
    exact leases_undispatch h some_pool here phase found _
  | threw call request pool lease fault here phase some_pool found =>
    exact leases_threw h some_pool here phase found fault
  | dispatch call request pool lease here phase some_pool found =>
    exact leases_dispatch h some_pool here phase found
  | released call entry awaitsClose cause failure here phase =>
    exact leases_setIdle h here phase (by simp) (by simp)
  | adapted call result response here phase =>
    exact leases_setIdle h here phase (by simp) (by simp)
  | backOff call plan cause here planned origin =>
    have idle := awaits_of_phase rfl (runs_idle (origin_runs origin))
    refine leases_putCall h here fun ticket => Eq.trans ?_ (idle ticket).symm
    refine awaits_of_phase rfl (fun request => ?_) ticket
    cases call.scope.reason <;> simp
  | finish call outcome here runs => exact leases_finish h here runs outcome

theorem interrupted_awaits (reason : WasmRuntimeError) (call : Call) (scope : AbortScope) (ticket : Nat) :
    Call.awaits ticket { call with scope, phase := call.phase.interrupted reason } = call.awaits ticket := by
  unfold Call.awaits CallPhase.interrupted
  cases call.phase <;> rfl

theorem leases_interrupt (h : Leases r) (reason : WasmRuntimeError) : Leases (r.abortCall c reason) := by
  unfold abortCall
  split
  · next call here =>
    split_ifs
    · exact h
    · have set := leases_putCall h here (interrupted_awaits reason call
        { call.scope with reason := some reason })
      cases some_pool : r.pool with
      | none => exact leases_of_same set rfl rfl (by simp [putCall, some_pool]) set.verifying
      | some p =>
        obtain ⟨sound, booked⟩ := set.booked p some_pool
        let aborted : GoforgeWasmRuntime := r.putCall c { call with
          scope := { call.scope with reason := some reason }
          phase := call.phase.interrupted reason }
        have flows : PoolFlows aborted.signals p (p.abort aborted.signals c (.wasm reason)) :=
          abort_flows c (.wasm reason)
        refine leases_of_pool set some_pool ?_ rfl (sound.moves flows.moves) (booked.flows flows)
        simp [putCall, some_pool, aborted]
  · exact h

theorem leases_addCall (h : Leases r) (idle : ∀ ticket, call.awaits ticket = false) :
    Leases (r.addCall call) where
  unloaded empty := by
    obtain ⟨others, none_yet⟩ := h.unloaded empty
    refine ⟨fun other mem ticket => ?_, none_yet⟩
    rcases mem_append.mp mem with old | new
    · exact others other old ticket
    · rw [mem_singleton.mp new]
      exact idle ticket
  booked p some_pool := ⟨(h.booked p some_pool).1, (h.booked p some_pool).2.addCall idle⟩
  verifying := h.verifying

theorem inert_idle (inert : call.Inert) (ticket : Nat) : call.awaits ticket = false := by
  rcases inert.past with refused | ⟨_, outcome, settled⟩
  · exact awaits_of_phase refused (by simp) ticket
  · exact awaits_of_phase settled (by simp) ticket

theorem found_running {dispatches : List Dispatch} {calls : List Call} (sound : p.Sound)
    (booked : Booked calls dispatches p) {d : Nat} {dispatch : Dispatch}
    (there : dispatches[d]? = some dispatch) (running : dispatch.phase = .running) :
    p.held.find? (fun l => l.ticket = dispatch.lease.ticket) = some dispatch.granted := by
  have held := booked.running d dispatch there (by rw [running]; rfl)
  cases found : p.held.find? fun l => l.ticket = dispatch.lease.ticket with
  | none =>
    have missing := find?_eq_none.mp found dispatch.granted held
    simp [Dispatch.granted] at missing
  | some l =>
    have same : l.ticket = dispatch.lease.ticket := by simpa using find?_some found
    have mem := mem_of_find?_eq_some found
    rw [sound.accountable.lease_unique (mem_append_left _ mem) (mem_append_left _ held) same]

section

variable (h : Leases r)

include h

theorem leases_settleDispatch {d : Nat} {dispatch : Dispatch}
    (there : r.dispatches[d]? = some dispatch) (some_pool : r.pool = some p)
    (running : dispatch.phase = .running) (verdict : Verdict) :
    Leases (r.settleDispatch d dispatch p verdict) := by
  obtain ⟨sound, booked⟩ := h.booked p some_pool
  have found := found_running sound booked there running
  obtain ⟨q, returns, move, flows, gone, _⟩ :=
    release_returns r.signals sound.owned found verdict.discards
  refine leases_of_pool h some_pool rfl rfl ((sound.move move).moves flows.moves) ?_
  have settled (awaitsClose : Bool) : Booked r.calls (r.dispatches.set d
      { dispatch with phase := .releasing verdict awaitsClose }) q :=
    booked.settle sound.accountable.held_nodup there returns
      (fun _ mem => gone_move mem move) rfl rfl rfl gone
  exact (settled _).flows flows

theorem leases_releaseDispatch {d : Nat} {dispatch : Dispatch} {verdict : Verdict}
    {awaitsClose : Bool} (there : r.dispatches[d]? = some dispatch)
    (phase : dispatch.phase = .releasing verdict awaitsClose) (result : Except Thrown AbiResponseV1) :
    Leases (r.putDispatch d { dispatch with phase := .finished verdict result }) := by
  cases some_pool : r.pool with
  | none =>
    rw [(h.unloaded some_pool).2] at there
    cases there
  | some p =>
    obtain ⟨sound, booked⟩ := h.booked p some_pool
    refine leases_of_pool h some_pool some_pool rfl sound ?_
    refine booked.setDispatch there rfl rfl (by rw [phase]; rfl) rfl fun bad => ?_
    exact booked.tainted d dispatch there (by rw [phase]; exact bad)

theorem leases_pool_new {startedAt : JsNumber}
    (verifying : r.load = .verifying startedAt) {max : PoolSize} {turn : Nat}
    (calls : t.calls = r.calls) (dispatches : t.dispatches = r.dispatches) (pool : t.pool = some (.new max turn))
    (later : t.load ≠ .idle ∧ ∀ startedAt, t.load ≠ .verifying startedAt) : Leases t := by
  obtain ⟨idle, none_yet⟩ := h.unloaded (h.verifying startedAt (.inr verifying))
  refine ⟨fun empty => ?_, fun p some_pool => ?_, fun startedAt early => ?_⟩
  · cases pool.symm.trans empty
  · cases pool.symm.trans some_pool
    rw [calls, dispatches, none_yet]
    have idle_at {k ticket : Nat} {call : Call} (here : r.calls[k]? = some call)
        (awaits : call.awaits ticket = true) : False := by
      rw [idle call (mem_of_getElem? here) ticket] at awaits
      cases awaits
    refine ⟨InstancePool.Sound.new max turn, ⟨fun w mem => ?_, fun l mem => ?_, by simp, by simp,
      by simp, fun i j a b ticket ha _ left _ => ?_, by simp, by simp,
      fun k call ticket here awaits => ?_⟩⟩
    · cases mem
    · cases mem
    · exact (idle_at ha left).elim
    · exact (idle_at here awaits).elim
  · rcases early with first | again
    · exact absurd first later.1
    · exact absurd again (later.2 startedAt)

theorem leases_turn (some_pool : r.pool = some p) :
    Leases { r with pool := some { p with turn := p.turn + 1 } } := by
  obtain ⟨sound, booked⟩ := h.booked p some_pool
  have move : PoolMove r.signals p { p with turn := p.turn + 1 } := .turn
  refine leases_of_pool h some_pool rfl rfl (sound.move move) ?_
  exact booked.grants (grants_of_turn p) fun _ mem => mem

theorem leases_flows (some_pool : r.pool = some p) {signals : Signals}
    (flows : PoolFlows signals p q) : Leases { r with pool := some q } := by
  obtain ⟨sound, booked⟩ := h.booked p some_pool
  exact leases_of_pool h some_pool rfl rfl (sound.moves flows.moves) (booked.flows flows)

theorem leases_move (move : RuntimeMove e r t) : Leases t := by
  cases move with
  | call c seams event move => exact leases_callMove h move
  | wait c call here phase => exact leases_setIdle h here phase (by simp) (by simp)
  | giveUp c call outcome here entered =>
    exact leases_finish h here (by rw [entered]; rfl) outcome
  | inert call inert => exact leases_addCall h (inert_idle inert)
  | leak operation payload options seams cause =>
    have started : Leases { r with activeCalls := r.activeCalls + 1 } :=
      leases_of_same h rfl rfl rfl h.verifying
    exact leases_addCall started fun _ => rfl
  | enter call kind fresh =>
    have started : Leases { r with activeCalls := r.activeCalls + 1 } :=
      leases_of_same h rfl rfl rfl h.verifying
    exact leases_addCall started (awaits_of_phase fresh.phase (by simp))
  | enterPreload call kind fresh => exact leases_addCall h (awaits_of_phase fresh.phase (by simp))
  | startLoad load events idle isOpen first =>
    have none_yet : r.pool = none := h.verifying 0 (.inl idle)
    exact leases_of_same h rfl rfl rfl fun _ _ => none_yet
  | verifyFails startedAt cause verifying => exact leases_of_same h rfl rfl rfl (by simp)
  | poolReady startedAt load events verifying live next =>
    refine leases_pool_new h verifying rfl rfl rfl ?_
    rcases next with ⟨manifest, rfl⟩ | ⟨fault, rfl⟩ <;> simp
  | loadFails startedAt cause error code events failing =>
    exact leases_of_same h rfl rfl rfl (by simp)
  | deliverLoad c call result here phase | deliverDispatch c call _ _ _ result here phase
  | deliverExecution c call x result here phase | wake c call delay result here phase =>
    exact leases_setIdle h here phase (by simp) (by simp)
  | interrupt c call reason => exact leases_interrupt h reason
  | settleDispatch d dispatch pool outcome event there some_pool running =>
    exact leases_settleDispatch h there some_pool running _
  | releaseDispatch d dispatch verdict awaitsClose failure there phase =>
    exact leases_releaseDispatch h there phase _
  | environment step pool system flow some_pool stepped =>
    exact leases_flows h some_pool (poolStep_flows flow stepped)
  | turn =>
    cases some_pool : r.pool with
    | none => exact leases_of_same h rfl rfl (by simp [nextTurn, some_pool]) h.verifying
    | some p =>
      have turned := leases_turn h some_pool
      exact leases_of_same turned rfl rfl (by simp [nextTurn, some_pool]) turned.verifying
  | note | succeed | execution | shut | awaitCalls | await | closed | adapters | clearAdapters
  | signal => exact leases_of_same h rfl rfl rfl h.verifying

theorem leases_step (stepped : r.step e = some t) : Leases t :=
  (step_moves stepped).invariant (fun _ _ => leases_move) h

end

theorem leases_fresh (h : r.Fresh) : Leases r where
  unloaded _ := by simp [h.calls, h.dispatches]
  booked p some_pool := by
    rw [h.pool] at some_pool
    cases some_pool
  verifying _ _ := h.pool

end GoforgeWasmRuntime

theorem runtime_leases {r : GoforgeWasmRuntime} (h : runtimeMachine.Reachable r) : Leases r := by
  refine h.invariant ?_ ?_
  · rintro r ⟨options, constructed⟩
    exact GoforgeWasmRuntime.leases_fresh (GoforgeWasmRuntime.new_fresh constructed)
  · intro r e t leases stepped
    exact GoforgeWasmRuntime.leases_step leases stepped

end ForgeDeno
