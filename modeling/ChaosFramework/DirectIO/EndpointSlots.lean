import ChaosFramework.Transition
import Mathlib.Data.List.FinRange

/-!
# The endpoint slots of the dispatcher

`getNewEndpoint` takes an index from a queue and makes an endpoint for its slot. `releaseEndpoint`
deletes what the slot of the endpoint has and puts the index into the queue. It does not test that
the endpoint is that of the slot, so an endpoint that is released again puts its index into the
queue a second time. An exception of the allocation leaves an index in no place.
-/

namespace ChaosFramework.DirectIO

open Transition List Option Function

/-- `DirectIODispatcher` after `init`, with endpoints named in the order of their creation. -/
structure DirectIODispatcher where
  availableEndpointSlot : List (Fin 256)
  /-- The endpoint of a slot. The slot is enabled as long as it has one. -/
  endpointSlotArray : Fin 256 → Option ℕ
  /-- The memory of an endpoint that was deleted is taken to keep its index. -/
  endpointRouteIndex : ℕ → Fin 256
  nextEndpoint : ℕ
  /-- The endpoints that have been obtained and not yet released. -/
  live : List ℕ

namespace DirectIODispatcher

def init : DirectIODispatcher := ⟨List.finRange 256, fun _ => none, fun _ => ⟨0, by decide⟩, 0, []⟩

/-- The endpoint that is returned is `none` for a null pointer. Nothing is returned if the
allocation throws, and the index that was taken from the queue is lost. -/
def getNewEndpoint (d : DirectIODispatcher) (allocated : Bool) : DirectIODispatcher × Option ℕ :=
  match d.availableEndpointSlot with
  | [] => (d, none)
  | slot :: rest =>
      if allocated then
        ({ availableEndpointSlot := rest
           endpointSlotArray := update d.endpointSlotArray slot (some d.nextEndpoint)
           endpointRouteIndex := update d.endpointRouteIndex d.nextEndpoint slot
           nextEndpoint := d.nextEndpoint + 1
           live := d.nextEndpoint :: d.live }, some d.nextEndpoint)
      else ({ d with availableEndpointSlot := rest }, none)

def releaseEndpoint (d : DirectIODispatcher) (endpoint : ℕ) : DirectIODispatcher :=
  let slot := d.endpointRouteIndex endpoint
  { d with
    availableEndpointSlot := d.availableEndpointSlot ++ [slot]
    endpointSlotArray := update d.endpointSlotArray slot none
    live := d.live.erase endpoint }

inductive EndpointCall
  | getNewEndpoint (allocated : Bool)
  | releaseEndpoint (endpointToRelease : Option ℕ)
  deriving DecidableEq, Repr

/-- Only what `getNewEndpoint` has returned is released. -/
def step (d : DirectIODispatcher) : EndpointCall → Option DirectIODispatcher
  | .getNewEndpoint allocated => some (d.getNewEndpoint allocated).1
  | .releaseEndpoint none => some d
  | .releaseEndpoint (some endpoint) =>
      if endpoint < d.nextEndpoint then some (d.releaseEndpoint endpoint) else none

/-- The indexes of the queue and of the live endpoints. -/
def indexes (d : DirectIODispatcher) : List (Fin 256) :=
  d.availableEndpointSlot ++ d.live.map d.endpointRouteIndex

structure Partitioned (d : DirectIODispatcher) : Prop where
  apart : d.live.Pairwise fun e f => d.endpointRouteIndex e ≠ d.endpointRouteIndex f
  once : ∀ slot, d.indexes.count slot = 1

/-- The memory suffices, and only live endpoints are released. -/
def Proper (d : DirectIODispatcher) : EndpointCall → Prop
  | .getNewEndpoint allocated => allocated = true ∨ d.availableEndpointSlot = []
  | .releaseEndpoint none => True
  | .releaseEndpoint (some endpoint) => endpoint ∈ d.live

/-- The invariant. Live endpoints have been made. -/
structure Tracked (d : DirectIODispatcher) : Prop where
  once : ∀ slot, d.indexes.count slot = 1
  made : ∀ e ∈ d.live, e < d.nextEndpoint

variable {d t : DirectIODispatcher} {call : EndpointCall}

theorem Tracked.partitioned (h : d.Tracked) : d.Partitioned := by
  refine ⟨pairwise_map.mp ?_, h.once⟩
  have hn : d.indexes.Nodup := nodup_iff_count_le_one.mpr fun slot => (h.once slot).le
  exact hn.sublist (sublist_append_right _ _)

theorem tracked_init : init.Tracked where
  once slot := by
    have all : init.indexes = finRange 256 := by
      simp [indexes, init]
    rw [all]
    exact count_eq_one_of_mem (nodup_finRange 256) (mem_finRange slot)
  made := nofun

theorem indexes_getNewEndpoint (h : d.Tracked) :
    (d.getNewEndpoint true).1.indexes.Perm d.indexes := by
  unfold getNewEndpoint
  split
  next => exact .refl _
  next slot rest hs =>
    have hl : d.live.map (update d.endpointRouteIndex d.nextEndpoint slot) =
        d.live.map d.endpointRouteIndex :=
      map_congr_left fun e he => update_of_ne (h.made e he).ne _ _
    rw [if_pos rfl, indexes, indexes, hs]
    dsimp only
    rw [map_cons, update_self, hl]
    exact perm_middle

theorem indexes_releaseEndpoint {endpoint : ℕ} (hl : endpoint ∈ d.live) :
    (d.releaseEndpoint endpoint).indexes.Perm d.indexes := by
  have hp := (perm_cons_erase hl).map d.endpointRouteIndex
  simp only [releaseEndpoint, indexes, append_assoc]
  exact hp.symm.append_left _

theorem Tracked.step (h : d.Tracked) (hp : d.Proper call) (ht : d.step call = some t) :
    t.Tracked := by
  have keep {r : DirectIODispatcher} (hr : r.indexes.Perm d.indexes)
      (made : ∀ e ∈ r.live, e < r.nextEndpoint) : r.Tracked :=
    ⟨fun slot => (hr.count_eq slot).trans (h.once slot), made⟩
  cases call with
  | getNewEndpoint allocated =>
    cases ht
    obtain rfl | hn := hp
    · refine keep (indexes_getNewEndpoint h) ?_
      unfold DirectIODispatcher.getNewEndpoint
      split
      next => exact h.made
      next =>
        exact forall_mem_cons.mpr ⟨Nat.lt_succ_self _, fun e he => Nat.lt_succ_of_lt (h.made e he)⟩
    · rwa [DirectIODispatcher.getNewEndpoint, hn]
  | releaseEndpoint endpoint =>
    cases endpoint with
    | none =>
      cases ht
      exact h
    | some endpoint =>
      obtain ⟨-, ⟨⟩⟩ := ite_none_right_eq_some.mp ht
      exact keep (indexes_releaseEndpoint hp) fun e he => h.made e (mem_of_mem_erase he)

/-- An index that is lost, or put into the queue twice, stays so. -/
theorem Tracked.proper (h : d.Tracked) (ht : d.step call = some t) (parts : t.Partitioned) :
    d.Proper call := by
  cases call with
  | getNewEndpoint allocated =>
    cases ht
    cases allocated with
    | true => exact .inl rfl
    | false =>
      refine .inr ?_
      cases hs : d.availableEndpointSlot with
      | nil => rfl
      | cons slot rest =>
        have before := h.once slot
        have after := parts.once slot
        simp only [DirectIODispatcher.getNewEndpoint, indexes, hs, cons_append,
          count_cons_self, Bool.false_eq_true, if_false] at before after
        omega
  | releaseEndpoint endpoint =>
    cases endpoint with
    | none => trivial
    | some endpoint =>
      obtain ⟨-, ⟨⟩⟩ := ite_none_right_eq_some.mp ht
      by_contra hl
      have before := h.once (d.endpointRouteIndex endpoint)
      have after := parts.once (d.endpointRouteIndex endpoint)
      simp only [DirectIODispatcher.releaseEndpoint, indexes, erase_of_not_mem hl,
        count_append, count_singleton_self] at before after
      omega

/-- The slots are right in every state exactly when no allocation throws and no endpoint is
released twice. -/
theorem partitioned_iff_proper {calls : List EndpointCall}
    (run : execute DirectIODispatcher.step init calls = some t) :
    Admissible DirectIODispatcher.step Proper init calls ↔
      ∀ n d, execute DirectIODispatcher.step init (calls.take n) = some d → d.Partitioned :=
  admissible_iff_forall_reached Tracked.step Tracked.partitioned Tracked.proper tracked_init run

theorem partitioned_iff_proper_two :
    let calls : List EndpointCall := [.getNewEndpoint true, .releaseEndpoint (some 0)]
    ∃ t, execute DirectIODispatcher.step init calls = some t ∧ t.Partitioned := by
  intro calls
  have proper : Admissible DirectIODispatcher.step Proper init calls :=
    ⟨.inl rfl, mem_cons_self, trivial⟩
  exact ⟨_, rfl, (@partitioned_iff_proper _ calls rfl).mp proper 2 _ rfl⟩

/-- All endpoints are taken, the first one is released twice, and its slot goes to two others. -/
theorem slot_shared :
    let calls : List EndpointCall := replicate 256 (.getNewEndpoint true) ++
      [.releaseEndpoint (some 0), .releaseEndpoint (some 0), .getNewEndpoint true,
        .getNewEndpoint true]
    ∃ d, execute DirectIODispatcher.step init calls = some d ∧
      d.live.take 2 = [257, 256] ∧ [257, 256].map (d.endpointRouteIndex ·|>.val) = [0, 0] := by
  intro calls
  have shared : (execute DirectIODispatcher.step init calls).map (fun d => (d.live.take 2,
      [257, 256].map (d.endpointRouteIndex ·|>.val))) = some ([257, 256], [0, 0]) := by
    decide +kernel
  obtain ⟨d, run, hd⟩ := map_eq_some_iff.mp shared
  exact ⟨d, run, Prod.mk.inj hd⟩

end DirectIODispatcher

end ChaosFramework.DirectIO
