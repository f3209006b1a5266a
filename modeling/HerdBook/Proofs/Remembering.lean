import HerdBook.Proofs.Atomicity
import HerdBook.Proofs.Numbering
import HerdBook.Proofs.Sameness
import Mathlib.Data.List.Induction

/-!
# What is remembered of requests

Requests come in, they are responded to, somebody waits, time passes, and who waits has turns
(`RequestStep`). These steps may come in any order (`Requests.play`). After any of them, what is
remembered is in the order in which it came in, and what is answered is remembered and waited for by
nobody (`Requests.InOrder`). That nobody waits for it is what makes the requests that are forgotten
first just the answered ones: a request with a response and somebody who waits for it would count
among the others.

## Main results

* `Requests.Orderly.after`: what each step keeps.
* `Requests.run_respond_of_accepts`, `Requests.run_respond_of_not_accepts`: a response counts, or it
  changes nothing.
* `Requests.firstResponse_unique`: at most one response to a request counts.
* `Requests.ofSteps_remembers`: what is promised after any steps.
-/

namespace HerdBook

open Effect

/-- What happens to the requests. -/
inductive RequestStep where
  | request (fields : Fields)
  | respond (request : Value) (body : Fields)
  /-- Somebody starts to wait. -/
  | wait (request timeout : Value)
  /-- The clock reaches a time. -/
  | expire (time : Rat)
  /-- Everybody who waits has a number of turns. -/
  | resume (turns : Nat)
  /-- Elsewhere requests get ids, and others start to wait. -/
  | elsewhere (ids tickets : Nat)

namespace RequestStep

/-- The state after a step. -/
def after : RequestStep → Requests → Requests
  | .request fields, state => ((Requests.request fields).run state).2
  | .respond id body, state => ((Requests.respond id body).run state).2
  | .wait id timeout, state => ((Requests.start id timeout).run state).2
  | .expire time, state => state.expire time
  | .resume turns, state => state.resume turns
  | .elsewhere ids tickets, state =>
    { state with issued := state.issued + ids, tickets := state.tickets + tickets }

/-- A request comes in. -/
def IsRequest : RequestStep → Prop
  | .request .. => True
  | _ => False

end RequestStep

namespace Requests

/-- The state after steps. -/
def play (steps : List RequestStep) (state : Requests) : Requests :=
  steps.foldl (fun state step => step.after state) state

/-- The state that steps lead to when so many requests are remembered and there is none yet. -/
def ofSteps (limit : Int) (steps : List RequestStep) : Requests := play steps (empty (.count limit))

/-- The id that the next request gets. -/
def nextId (state : Requests) : String := requestId (state.issued + 1)

variable {state : Requests} {id : String} {limit : Int} {n : Nat}

/-! ### Who waits for a request -/

/-- Nobody is registered in the change. -/
def Quiets (f : Waiter → Waiter) : Prop :=
  ∀ w, (f w).request = w.request ∧ ((f w).registered = true → w.registered = true)

theorem waitersOn_eq_nil_iff : state.waitersOn id = [] ↔
    ∀ w ∈ state.waiters, w.registered = true → w.request.same (.str id) = false := by
  simp [waitersOn, List.filter_eq_nil_iff]

/-- Where nobody waits, nobody does after a change in which nobody is registered. -/
theorem waitersOn_map_eq_nil {f : Waiter → Waiter} (hf : Quiets f) (h : state.waitersOn id = [])
    {state' : Requests} (hs : state'.waiters = state.waiters.map f) : state'.waitersOn id = [] := by
  rw [waitersOn_eq_nil_iff, hs, List.forall_mem_map] at *
  intro w hw hregistered
  obtain ⟨hrequest, hwas⟩ := hf w
  rw [hrequest]
  exact h w hw (hwas hregistered)

/-- The waiter when the request is forgotten. -/
def unregistered (id : String) (w : Waiter) : Waiter :=
  if w.request.same (.str id) then { w with registered := false } else w

theorem waiters_forget (state : Requests) (id : String) :
    (state.forget id).waiters = state.waiters.map (unregistered id) := rfl

theorem quiets_unregistered (id : String) : Quiets (unregistered id) := by
  intro w
  unfold unregistered
  split
  · exact ⟨rfl, nofun⟩
  · exact ⟨rfl, fun h => h⟩

theorem quiets_wake (id : String) (body : Fields) : Quiets (wake id body) := by
  intro w
  unfold wake
  split
  · exact ⟨rfl, nofun⟩
  · exact ⟨rfl, fun h => h⟩

theorem quiets_lapse (time : Rat) : Quiets (lapse time) := by
  intro w
  unfold lapse
  split
  · split <;> exact ⟨rfl, fun h => h⟩
  · exact ⟨rfl, fun h => h⟩

theorem quiets_takeTurns (turns : Nat) : Quiets (takeTurns turns) := by
  intro w
  unfold takeTurns
  split
  · exact ⟨rfl, fun h => h⟩
  · next how left _ =>
    cases how with
    | expired => exact ⟨rfl, fun h => (Bool.and_eq_true_iff.mp h).1⟩
    | answered | faulted => exact ⟨rfl, fun h => h⟩

/-- Nobody waits any more for what is responded to. -/
theorem waitersOn_wake (body : Fields) {state' : Requests}
    (hs : state'.waiters = state.waiters.map (wake id body)) : state'.waitersOn id = [] := by
  rw [waitersOn_eq_nil_iff, hs, List.forall_mem_map]
  intro w _ hregistered
  unfold wake at hregistered ⊢
  split
  · next h => simp [h] at hregistered
  · next h =>
    rw [if_neg h] at hregistered
    simpa [hregistered] using h

/-! ### The order of what is remembered -/

/-- Ids of different numbers differ. -/
theorem requestId_inj {k m : Nat} (h : requestId k = requestId m) : k = m :=
  toString_inj_of_append h

/-- The requests are remembered in the order in which they got their ids, and those that are
answered are waited for by nobody. -/
structure InOrder (state : Requests) : Prop where
  numbered : ∃ numbers : List Nat, Table.keys state.requests = numbers.map requestId ∧
    numbers.Pairwise (· < ·) ∧ ∀ k ∈ numbers, k ≤ state.issued
  once : (Table.keys state.responses).Nodup
  answered : ∀ id, Table.has id state.responses = true →
    Table.has id state.requests = true ∧ state.waitersOn id = []

namespace InOrder

/-- Each request is remembered once. -/
theorem nodup (h : state.InOrder) : (Table.keys state.requests).Nodup := by
  obtain ⟨numbers, hkeys, hsorted, -⟩ := h.numbered
  rw [hkeys]
  exact (hsorted.imp Nat.ne_of_lt).map requestId fun _ _ hne heq => hne (requestId_inj heq)

/-- A number that has not been handed out is not remembered. -/
theorem get?_requestId_eq_none (h : state.InOrder) {k : Nat} (hk : state.issued < k) :
    Table.get? (requestId k) state.requests = none := by
  refine Table.get?_eq_none _ fun hmem => ?_
  obtain ⟨numbers, hkeys, -, hissued⟩ := h.numbered
  obtain ⟨m, hm, heq⟩ := List.mem_map.mp (hkeys ▸ hmem)
  have := hissued m hm
  have := requestId_inj heq
  omega

/-- A new request comes last. -/
theorem requests_noted (h : state.InOrder) (fields : Fields) :
    (state.noted fields).requests = state.requests ++ [(state.nextId, fields)] :=
  Table.set_eq_append fields (h.get?_requestId_eq_none (Nat.lt_succ_self _))

/-- With it the requests are in order. -/
theorem noted (h : state.InOrder) (fields : Fields) : (state.noted fields).InOrder := by
  obtain ⟨numbers, hkeys, hsorted, hissued⟩ := h.numbered
  refine ⟨⟨numbers ++ [state.issued + 1], ?_, ?_, ?_⟩, h.once, fun id hid => ?_⟩
  · rw [h.requests_noted, Table.keys, List.map_append, List.map_append, ← hkeys]
    rfl
  · refine List.pairwise_append.mpr ⟨hsorted, List.pairwise_singleton _ _, fun k hk m hm => ?_⟩
    rw [List.mem_singleton.mp hm]
    exact Nat.lt_succ_of_le (hissued k hk)
  · intro k hk
    rcases List.mem_append.mp hk with hk | hk
    · exact Nat.le_succ_of_le (hissued k hk)
    · exact Nat.le_of_eq (List.mem_singleton.mp hk)
  · obtain ⟨hremembered, hnobody⟩ := h.answered id hid
    refine ⟨?_, hnobody⟩
    rw [Table.has_iff_mem_keys] at hremembered ⊢
    rw [h.requests_noted, Table.keys, List.map_append]
    exact List.mem_append_left _ hremembered

/-- Also when one is forgotten. -/
theorem forget (h : state.InOrder) (id : String) : (state.forget id).InOrder := by
  obtain ⟨numbers, hkeys, hsorted, hissued⟩ := h.numbered
  have hsub : (Table.keys (Table.erase id state.requests)).Sublist (numbers.map requestId) := by
    rw [Table.keys_erase, hkeys]
    exact List.erase_sublist
  obtain ⟨numbers', hsub, hkeys'⟩ := List.sublist_map_iff.mp hsub
  refine ⟨⟨numbers', hkeys', hsorted.sublist hsub, fun k hk => hissued k (hsub.subset hk)⟩, ?_,
    fun other hother => ?_⟩
  · change (Table.keys (Table.erase id state.responses)).Nodup
    rw [Table.keys_erase]
    exact h.once.erase id
  · change Table.has other (Table.erase id state.responses) = true at hother
    change Table.has other (Table.erase id state.requests) = true ∧ _
    rw [Table.has, Table.get?_erase id other h.once] at hother
    split at hother
    · exact absurd hother Bool.false_ne_true
    · next hne =>
      obtain ⟨hremembered, hnobody⟩ := h.answered other hother
      rw [Table.has, Table.get?_erase_of_ne hne]
      exact ⟨hremembered,
        waitersOn_map_eq_nil (quiets_unregistered id) hnobody (waiters_forget _ _)⟩

/-- Also when nobody is registered who waits, and numbers are handed out. -/
theorem of_quiets (h : state.InOrder) {f : Waiter → Waiter} (hf : Quiets f) {state' : Requests}
    (hrequests : state'.requests = state.requests) (hresponses : state'.responses = state.responses)
    (hwaiters : state'.waiters = state.waiters.map f) (hissued : state.issued ≤ state'.issued) :
    state'.InOrder := by
  obtain ⟨numbers, hkeys, hsorted, hle⟩ := h.numbered
  refine ⟨⟨numbers, hrequests ▸ hkeys, hsorted, fun k hk => Nat.le_trans (hle k hk) hissued⟩,
    hresponses ▸ h.once, fun id hid => ?_⟩
  obtain ⟨hremembered, hnobody⟩ := h.answered id (hresponses ▸ hid)
  exact ⟨hrequests ▸ hremembered, waitersOn_map_eq_nil hf hnobody hwaiters⟩

end InOrder

/-! ### Responding -/

/-- A response to the request counts: it is remembered and has none. -/
def Accepts (state : Requests) (request : Value) : Prop :=
  ∃ id, request = .str id ∧ Table.has id state.requests = true ∧
    Table.has id state.responses = false

/-- The state with a response that counts. -/
def responded (id : String) (body : Fields) (state : Requests) : Requests :=
  { state with
    responses := Table.set id body state.responses
    waiters := state.waiters.map (wake id body) }

/-- A response that counts is kept, and who waits for it is woken. -/
theorem run_respond_of_accepts (body : Fields) (hremembered : Table.has id state.requests = true)
    (hnew : Table.has id state.responses = false) : (respond (.str id) body).run state
      = (.ok (.fields [("request", .str id)]), state.responded id body) := by
  have hkey : (Effect.ofExcept (asKey (.str id)) : Effect Requests (Option String)).run state
      = (.ok (some id), state) := rfl
  rw [respond, run_bind_ok hkey, run_bind_ok (run_get state),
    Option.filter_some_pos (p := fun id => Table.has id state.requests) hremembered]
  dsimp only
  rw [if_neg (by simp [hnew])]
  rfl

/-- Another one changes nothing, and is an error. -/
theorem run_respond_of_not_accepts {request : Value} (body : Fields)
    (h : ¬state.Accepts request) : ((respond request body).run state).2 = state ∧
      (∀ answer, ((respond request body).run state).1 = .ok answer → answer.Refuses) ∧
      ∀ id, request = .str id → ∃ answer, ((respond request body).run state).1 = .ok answer := by
  have hkey : (Effect.ofExcept (asKey request) : Effect Requests (Option String)).run state
      = (asKey request, state) := rfl
  have htext : (textOf request : Effect Requests String).run state
      = (request.text.mapError .misuse, state) := rfl
  cases hk : asKey request with
  | error fault =>
    rw [respond, run_bind_error (hkey.trans (congrArg (·, state) hk))]
    refine ⟨rfl, fun answer ha => (by cases ha), ?_⟩
    rintro id rfl
    cases hk
  | ok key =>
    rw [respond, run_bind_ok (hkey.trans (congrArg (·, state) hk)), run_bind_ok (run_get state)]
    cases hfound : key.filter fun id => Table.has id state.requests with
    | none =>
      dsimp only
      cases ht : request.text.mapError Fault.misuse with
      | error fault =>
        rw [run_bind_error (htext.trans (congrArg (·, state) ht))]
        refine ⟨rfl, fun answer ha => (by cases ha), ?_⟩
        rintro id rfl
        cases ht
      | ok text =>
        rw [run_bind_ok (htext.trans (congrArg (·, state) ht))]
        exact ⟨rfl, fun answer ha => Except.ok.inj ha ▸ rfl, fun _ _ => ⟨_, rfl⟩⟩
    | some id =>
      obtain ⟨rfl, hremembered⟩ := Option.filter_eq_some_iff.mp hfound
      have hrequest : request = .str id := by
        unfold asKey at hk
        split at hk
        · exact congrArg Value.str (Option.some.inj (Except.ok.inj hk))
        · split at hk <;> cases hk
      have hold : Table.has id state.responses = true := by
        by_contra hnew
        exact h ⟨id, hrequest, hremembered, by simpa using hnew⟩
      dsimp only
      rw [if_pos hold]
      exact ⟨rfl, fun answer ha => Except.ok.inj ha ▸ rfl, fun _ _ => ⟨_, rfl⟩⟩

/-- A response that counts leaves the requests in order. -/
theorem InOrder.responded (h : state.InOrder) (hremembered : Table.has id state.requests = true)
    (body : Fields) : (state.responded id body).InOrder := by
  refine ⟨h.numbered, Table.nodup_keys_set id body h.once, fun other hother => ?_⟩
  change Table.has other (Table.set id body state.responses) = true at hother
  rw [Table.has, Table.get?_set] at hother
  split at hother
  · next heq =>
    subst heq
    exact ⟨hremembered, waitersOn_wake body rfl⟩
  · obtain ⟨hother, hnobody⟩ := h.answered other hother
    exact ⟨hother, waitersOn_map_eq_nil (quiets_wake id body) hnobody rfl⟩

/-! ### Waiting -/

/-- Who starts to wait gets the next ticket, and is not registered if the request has a response. -/
theorem exists_started (state : Requests) (request timeout : Value) : ∃ w : Waiter,
    (start request timeout).run state
      = (.ok w, { state with tickets := state.tickets + 1, waiters := state.waiters ++ [w] }) ∧
    w.ticket = state.tickets + 1 ∧ w.request = request ∧
    (w.registered = true → responseTo request state = .ok none) := by
  refine ⟨_, rfl, ?_, ?_, ?_⟩
  · split <;> rfl
  · split <;> rfl
  · split
    · exact nofun
    · exact nofun
    · next hnone => exact fun _ => hnone

/-- Who starts to wait leaves the requests in order. -/
theorem InOrder.started (h : state.InOrder) (request timeout : Value) :
    ((start request timeout).run state).2.InOrder := by
  obtain ⟨w, hrun, -, hrequest, hregistered⟩ := exists_started state request timeout
  rw [hrun]
  refine ⟨h.numbered, h.once, fun id hid => ?_⟩
  obtain ⟨hremembered, hnobody⟩ := h.answered id hid
  refine ⟨hremembered, waitersOn_eq_nil_iff.mpr fun w' hw' hr' => ?_⟩
  rcases List.mem_append.mp hw' with hw' | hw'
  · exact waitersOn_eq_nil_iff.mp hnobody w' hw' hr'
  · obtain rfl := List.mem_singleton.mp hw'
    have hnone := hregistered hr'
    rw [← hrequest] at hnone
    refine Bool.eq_false_iff.mpr fun hsame => ?_
    rw [Value.eq_of_same rfl rfl rfl hsame] at hnone
    have hnothing : Table.get? id state.responses = none := Except.ok.inj hnone
    simp [Table.has, hnothing] at hid

/-! ### Forgetting -/

/-- The request is the oldest one that is answered, or the oldest one when none is. -/
def IsOldest (state : Requests) (id : String) : Prop :=
  (Table.keys state.requests).find? (fun id => Table.has id state.responses) = some id ∨
    (∀ id ∈ Table.keys state.requests, Table.has id state.responses = false) ∧
      (Table.keys state.requests).head? = some id

/-- It is one of the requests. -/
theorem IsOldest.mem (h : state.IsOldest id) : id ∈ Table.keys state.requests := by
  rcases h with h | ⟨-, h⟩
  · exact List.mem_of_find?_eq_some h
  · exact List.mem_of_head? h

/-- There is one where there are requests. -/
theorem exists_isOldest (h : state.requests ≠ []) : ∃ id, state.IsOldest id := by
  cases hanswered : (Table.keys state.requests).find? fun id => Table.has id state.responses with
  | some id => exact ⟨id, .inl hanswered⟩
  | none =>
    obtain ⟨entry, rest, hrequests⟩ := List.exists_cons_of_ne_nil h
    exact ⟨entry.1, .inr ⟨by simpa using List.find?_eq_none.mp hanswered, by
      rw [hrequests, Table.keys, List.map_cons, List.head?_cons]⟩⟩

/-- Of what is put in order by a condition, the first is the first that meets it, or the first. -/
theorem head?_partition (p : String → Bool) (ids : List String) :
    (ids.filter p ++ ids.filter fun id => !p id).head? = (ids.find? p).or ids.head? := by
  rw [List.head?_append, List.head?_filter]
  cases hfound : ids.find? p with
  | some id => rfl
  | none =>
    rw [List.filter_eq_self.mpr (by simpa using List.find?_eq_none.mp hfound)]

/-- Where the answered requests are waited for by nobody, the oldest is the first to be forgotten,
also when one more came in. -/
theorem InOrder.take_forgettingOrder (h : state.InOrder) (fields : Fields)
    (hid : state.IsOldest id) : (state.noted fields).forgettingOrder.take 1 = [id] := by
  have hsettled : (state.noted fields).isSettled = fun id => Table.has id state.responses := by
    funext other
    change (Table.has other state.responses && (state.waitersOn other).isEmpty) = _
    cases hother : Table.has other state.responses with
    | false => rfl
    | true => rw [(h.answered other hother).2, Bool.true_and, List.isEmpty_nil]
  have hnew : Table.has state.nextId state.responses = false := by
    refine Bool.eq_false_iff.mpr fun hnew => ?_
    have hremembered := (h.answered _ hnew).1
    rw [Table.has, nextId, h.get?_requestId_eq_none (Nat.lt_succ_self _)] at hremembered
    cases hremembered
  rw [List.take_one, forgettingOrder, hsettled, head?_partition, h.requests_noted, Table.keys,
    List.map_append, List.find?_append, List.head?_append]
  rcases hid with hid | ⟨hnone, hid⟩
  · rw [Table.keys] at hid
    rw [hid]
    rfl
  · rw [Table.keys] at hid hnone
    rw [hid, List.find?_eq_none.mpr (by simpa using hnone)]
    simp [hnew]

/-! ### Steps -/

/-- The id has been handed out. -/
def IsIssued (id : String) (state : Requests) : Prop := ∃ k ≤ state.issued, id = requestId k

/-- What is remembered has been handed out. -/
theorem InOrder.isIssued (h : state.InOrder) (hid : id ∈ Table.keys state.requests) :
    IsIssued id state := by
  obtain ⟨numbers, hkeys, -, hissued⟩ := h.numbered
  rw [hkeys] at hid
  obtain ⟨k, hk, rfl⟩ := List.mem_map.mp hid
  exact ⟨k, hissued k hk, rfl⟩

/-- The requests are in order, and so many are to be remembered. -/
structure Orderly (limit : Int) (state : Requests) : Prop extends InOrder state where
  limited : state.limit = .count limit

/-- What holds with a new request, and whenever one is forgotten, holds when a request has come
in. -/
theorem Orderly.request_induction (h : state.Orderly limit) {P : Requests → Prop}
    (fields : Fields) (hnoted : P (state.noted fields))
    (hforget : ∀ (s : Requests) (old : String), s.InOrder → IsIssued old s → P s →
      P (s.forget old)) : P ((RequestStep.request fields).after state) := by
  rw [RequestStep.after, run_request state h.limited, trim]
  have hissued : ∀ old ∈ ((state.noted fields).forgettingOrder.take
      ((state.noted fields).requests.length - limit).toNat), IsIssued old (state.noted fields) := by
    intro old hold
    refine (h.noted fields).isIssued ?_
    rcases List.mem_append.mp (List.mem_of_mem_take hold) with hold | hold
    · exact List.mem_of_mem_filter hold
    · exact List.mem_of_mem_filter hold
  have horder := h.noted fields
  revert hissued hnoted horder
  generalize state.noted fields = s
  generalize s.forgettingOrder.take _ = olds
  induction olds generalizing s with
  | nil => exact fun hs _ _ => hs
  | cons old olds ih =>
    intro hs hissued horder
    obtain ⟨hold, holds⟩ := List.forall_mem_cons.mp hissued
    exact ih (s.forget old) (hforget s old horder hold hs) holds (horder.forget old)

/-- Every step leaves the requests in order. -/
theorem Orderly.after (h : state.Orderly limit) (step : RequestStep) :
    (step.after state).Orderly limit := by
  cases step with
  | request fields =>
    exact h.request_induction fields ⟨h.noted fields, h.limited⟩ fun s old _ _ hs =>
      ⟨hs.forget old, hs.limited⟩
  | respond id body =>
    by_cases haccepts : state.Accepts id
    · obtain ⟨id, rfl, hremembered, hnew⟩ := haccepts
      rw [RequestStep.after, run_respond_of_accepts body hremembered hnew]
      exact ⟨h.responded hremembered body, h.limited⟩
    · rw [RequestStep.after, (run_respond_of_not_accepts body haccepts).1]
      exact h
  | wait id timeout => exact ⟨h.started id timeout, h.limited⟩
  | expire time =>
    exact ⟨h.of_quiets (quiets_lapse time) rfl rfl rfl (Nat.le_refl _), h.limited⟩
  | resume turns =>
    exact ⟨h.of_quiets (quiets_takeTurns turns) rfl rfl rfl (Nat.le_refl _), h.limited⟩
  | elsewhere ids tickets =>
    exact ⟨h.of_quiets (f := id) (fun _ => ⟨rfl, fun h => h⟩) rfl rfl (List.map_id _).symm
      (Nat.le_add_right _ _), h.limited⟩

/-- So do all steps together. -/
theorem Orderly.play (h : state.Orderly limit) (steps : List RequestStep) :
    (play steps state).Orderly limit := by
  induction steps generalizing state with
  | nil => exact h
  | cons step steps ih => exact ih (h.after step)

/-- Whatever steps there were, the requests are in order. -/
theorem orderly_ofSteps (limit : Int) (steps : List RequestStep) :
    (ofSteps limit steps).Orderly limit := by
  have hempty : (empty (.count limit)).Orderly limit :=
    ⟨⟨⟨[], rfl, .nil, nofun⟩, .nil, nofun⟩, rfl⟩
  exact hempty.play steps

/-! ### What was forgotten does not come back -/

/-- What was handed out remains so. -/
theorem IsIssued.after (hid : IsIssued id state) (h : state.Orderly limit) (step : RequestStep) :
    IsIssued id (step.after state) := by
  obtain ⟨k, hk, rfl⟩ := hid
  refine ⟨k, Nat.le_trans hk ?_, rfl⟩
  cases step with
  | request fields =>
    rw [RequestStep.after, run_request state h.limited, (trim_keeps _ _).2.1]
    exact Nat.le_succ _
  | respond id body =>
    by_cases haccepts : state.Accepts id
    · obtain ⟨id, rfl, hremembered, hnew⟩ := haccepts
      have hafter : (RequestStep.respond (.str id) body).after state = state.responded id body :=
        congrArg Prod.snd (run_respond_of_accepts body hremembered hnew)
      exact Nat.le_of_eq (congrArg Requests.issued hafter).symm
    · have hafter : (RequestStep.respond id body).after state = state :=
        (run_respond_of_not_accepts body haccepts).1
      exact Nat.le_of_eq (congrArg Requests.issued hafter.symm)
  | wait | expire | resume => exact Nat.le_refl _
  | elsewhere ids tickets => exact Nat.le_add_right _ _

/-- A new request has a new id. -/
theorem InOrder.has_of_noted (h : state.InOrder) (hid : IsIssued id state) {fields : Fields}
    (hremembered : Table.has id (state.noted fields).requests = true) :
    Table.has id state.requests = true := by
  obtain ⟨k, hk, rfl⟩ := hid
  rw [Table.has_iff_mem_keys, h.requests_noted, Table.keys, List.map_append] at hremembered
  rcases List.mem_append.mp hremembered with hmem | hmem
  · exact (Table.has_iff_mem_keys _ _).mpr hmem
  · have := requestId_inj (List.mem_singleton.mp hmem)
    omega

/-- What is remembered when one was forgotten was remembered, and is another one. -/
theorem InOrder.has_of_forget (h : state.InOrder) {old : String}
    (hremembered : Table.has id (state.forget old).requests = true) :
    old ≠ id ∧ Table.has id state.requests = true := by
  change (Table.get? id (Table.erase old state.requests)).isSome = true at hremembered
  rw [Table.get?_erase old id h.nodup] at hremembered
  split at hremembered
  · exact absurd hremembered Bool.false_ne_true
  · next hne => exact ⟨hne, hremembered⟩

/-- Only with a new request another one may be forgotten. -/
theorem requests_after {step : RequestStep} (h : ¬step.IsRequest) :
    (step.after state).requests = state.requests := by
  cases step with
  | request fields => exact absurd trivial h
  | respond id body =>
    by_cases haccepts : state.Accepts id
    · obtain ⟨id, rfl, hremembered, hnew⟩ := haccepts
      rw [RequestStep.after, run_respond_of_accepts body hremembered hnew]
      rfl
    · rw [RequestStep.after, (run_respond_of_not_accepts body haccepts).1]
  | wait | expire | resume | elsewhere => rfl

/-- Without a new request none is forgotten. -/
theorem requests_play {steps : List RequestStep} (h : ∀ step ∈ steps, ¬step.IsRequest) :
    (play steps state).requests = state.requests := by
  induction steps generalizing state with
  | nil => rfl
  | cons step steps ih =>
    obtain ⟨hstep, hsteps⟩ := List.forall_mem_cons.mp h
    exact (ih hsteps).trans (requests_after hstep)

/-- What was forgotten does not come back. -/
theorem Orderly.has_of_after (h : state.Orderly limit) (hid : IsIssued id state)
    {step : RequestStep} (hremembered : Table.has id (step.after state).requests = true) :
    Table.has id state.requests = true := by
  by_cases hrequest : step.IsRequest
  · cases step with
    | request fields =>
      exact h.request_induction
        (P := fun s => Table.has id s.requests = true → Table.has id state.requests = true) fields
        (h.has_of_noted hid) (fun s old hs _ ih hr => ih (hs.has_of_forget hr).2) hremembered
    | _ => exact hrequest.elim
  · rwa [requests_after hrequest] at hremembered

/-! ### Responses that are kept -/

/-- The request has been handed out, and as long as it is remembered this is the response to it. -/
structure Holds (id : String) (body : Fields) (state : Requests) : Prop where
  isIssued : IsIssued id state
  get?_eq : Table.has id state.requests = true → Table.get? id state.responses = some body

/-- So it is when a response counts. -/
theorem InOrder.holds_responded (h : state.InOrder)
    (hremembered : Table.has id state.requests = true) (body : Fields) :
    Holds id body (state.responded id body) :=
  ⟨h.isIssued ((Table.has_iff_mem_keys _ _).mp hremembered), fun _ => by
    rw [Requests.responded, Table.get?_set, if_pos rfl]⟩

/-- No step changes a response. -/
theorem Holds.after {body : Fields} (hh : Holds id body state) (h : state.Orderly limit)
    (step : RequestStep) : Holds id body (step.after state) := by
  refine ⟨hh.isIssued.after h step, ?_⟩
  cases step with
  | request fields =>
    refine h.request_induction (P := fun s => Table.has id s.requests = true →
      Table.get? id s.responses = some body) fields (fun hremembered => ?_)
      fun s old hs _ ih hremembered => ?_
    · exact hh.get?_eq (h.has_of_noted hh.isIssued hremembered)
    · obtain ⟨hne, hremembered⟩ := hs.has_of_forget hremembered
      exact (Table.get?_erase_of_ne hne _).trans (ih hremembered)
  | respond request body' =>
    by_cases haccepts : state.Accepts request
    · obtain ⟨other, rfl, hother, hnew⟩ := haccepts
      rw [RequestStep.after, run_respond_of_accepts body' hother hnew]
      intro hremembered
      refine (Table.get?_set other id body' _).trans ?_
      have hbefore := hh.get?_eq hremembered
      rw [if_neg ?_]
      · exact hbefore
      · rintro rfl
        simp [Table.has, hbefore] at hnew
    · rw [RequestStep.after, (run_respond_of_not_accepts body' haccepts).1]
      exact hh.get?_eq
  | wait | expire | resume | elsewhere => exact hh.get?_eq

/-- Nor do several. -/
theorem Holds.play {body : Fields} (hh : Holds id body state) (h : state.Orderly limit)
    (steps : List RequestStep) : Holds id body (play steps state) := by
  induction steps generalizing state with
  | nil => exact hh
  | cons step steps ih => exact ih (hh.after h step) (h.after step)

/-! ### The response that counts -/

variable {body : Fields} {before later steps : List RequestStep}

/-- A response to the request that comes after these steps counts. -/
def Counts (limit : Int) (before : List RequestStep) (id : String) (body : Fields) : Prop :=
  ((respond (.str id) body).run (ofSteps limit before)).1 = .ok (.fields [("request", .str id)])

/-- It counts just when the request is remembered and has no response. -/
theorem counts_iff : Counts limit before id body ↔
    Table.has id (ofSteps limit before).requests = true ∧
      Table.has id (ofSteps limit before).responses = false := by
  constructor
  · intro h
    by_contra hnot
    have haccepts : ¬(ofSteps limit before).Accepts (.str id) := by
      rintro ⟨other, hother, hboth⟩
      obtain rfl := Value.str.inj hother
      exact hnot hboth
    have hrefuses := (run_respond_of_not_accepts body haccepts).2.1 _ h
    exact Answer.not_refuses_fields (by decide) _ hrefuses
  · rintro ⟨hremembered, hnew⟩
    exact congrArg Prod.fst (run_respond_of_accepts body hremembered hnew)

/-- Among the steps is a response to the request that counts. -/
def FirstResponse (limit : Int) (steps : List RequestStep) (id : String) (body : Fields) : Prop :=
  ∃ before later, steps = before ++ .respond (.str id) body :: later ∧ Counts limit before id body

theorem ofSteps_append (limit : Int) (before later : List RequestStep) :
    ofSteps limit (before ++ later) = play later (ofSteps limit before) :=
  List.foldl_append

/-- From a response that counts on, the request has this response as long as it is remembered. -/
theorem Counts.holds (h : Counts limit before id body) (later : List RequestStep) :
    Holds id body (ofSteps limit (before ++ .respond (.str id) body :: later)) := by
  obtain ⟨hremembered, hnew⟩ := counts_iff.mp h
  have horderly := orderly_ofSteps limit before
  have hafter : (RequestStep.respond (.str id) body).after (ofSteps limit before)
      = (ofSteps limit before).responded id body :=
    congrArg Prod.snd (run_respond_of_accepts body hremembered hnew)
  rw [ofSteps_append, play, List.foldl_cons, hafter]
  exact (horderly.holds_responded hremembered body).play
    ⟨horderly.responded hremembered body, horderly.limited⟩ later

/-- After it no other response counts. -/
theorem Counts.not_counts (h : Counts limit before id body) (between : List RequestStep)
    (other : Fields) : ¬Counts limit (before ++ .respond (.str id) body :: between) id other := by
  intro hother
  obtain ⟨hremembered, hnew⟩ := counts_iff.mp hother
  simp [Table.has, (h.holds between).get?_eq hremembered] at hnew

/-- Of two responses that count, neither comes after the other. -/
theorem Counts.eq_of_append (h : Counts limit before id body)
    {between later' : List RequestStep} {other : Fields}
    (h' : Counts limit (before ++ between) id other)
    (hsteps : .respond (.str id) body :: later = between ++ .respond (.str id) other :: later') :
    body = other := by
  cases between with
  | nil => exact (RequestStep.respond.inj (List.cons.inj hsteps).1).2
  | cons step between =>
    obtain ⟨rfl, -⟩ := List.cons.inj hsteps
    exact absurd h' (h.not_counts between other)

/-- At most one response to a request counts. -/
theorem firstResponse_unique {other : Fields} (h : FirstResponse limit steps id body)
    (h' : FirstResponse limit steps id other) : body = other := by
  obtain ⟨before, later, rfl, hcounts⟩ := h
  obtain ⟨before', later', hsteps, hcounts'⟩ := h'
  rcases List.append_eq_append_iff.mp hsteps with ⟨between, rfl, hrest⟩ | ⟨between, rfl, hrest⟩
  · exact hcounts.eq_of_append hcounts' hrest
  · exact (hcounts'.eq_of_append hcounts hrest).symm

/-- A response that is found after a step was there before it, or has just come. -/
theorem get?_responses_after (h : state.Orderly limit) {step : RequestStep}
    (hbody : Table.get? id (step.after state).responses = some body) :
    Table.get? id state.responses = some body ∨
      (step = .respond (.str id) body ∧ Table.has id state.requests = true ∧
        Table.has id state.responses = false) := by
  cases step with
  | request fields =>
    refine .inl (h.request_induction (P := fun s => Table.get? id s.responses = some body →
      Table.get? id state.responses = some body) fields (fun hr => hr) (fun s old hs _ ih hr => ?_)
      hbody)
    change Table.get? id (Table.erase old s.responses) = some body at hr
    rw [Table.get?_erase old id hs.once] at hr
    split at hr
    · cases hr
    · exact ih hr
  | respond request other =>
    by_cases haccepts : state.Accepts request
    · obtain ⟨key, rfl, hremembered, hnew⟩ := haccepts
      rw [RequestStep.after, run_respond_of_accepts other hremembered hnew] at hbody
      change Table.get? id (Table.set key other state.responses) = some body at hbody
      rw [Table.get?_set] at hbody
      split at hbody
      · next hkey =>
        subst hkey
        exact .inr ⟨Option.some.inj hbody ▸ rfl, hremembered, hnew⟩
      · exact .inl hbody
    · rw [RequestStep.after, (run_respond_of_not_accepts other haccepts).1] at hbody
      exact .inl hbody
  | wait | expire | resume | elsewhere => exact .inl hbody

theorem FirstResponse.append (h : FirstResponse limit steps id body) (more : List RequestStep) :
    FirstResponse limit (steps ++ more) id body := by
  obtain ⟨before, later, rfl, hcounts⟩ := h
  exact ⟨before, later ++ more, by simp, hcounts⟩

/-- Each response is one that counted. -/
theorem firstResponse_of_get?
    (hbody : Table.get? id (ofSteps limit steps).responses = some body) :
    FirstResponse limit steps id body := by
  induction steps using List.reverseRecOn with
  | nil => exact nomatch hbody
  | append_singleton steps step ih =>
    rw [ofSteps_append] at hbody
    rcases get?_responses_after (orderly_ofSteps limit steps) hbody with hbody | ⟨rfl, hcounts⟩
    · exact (ih hbody).append [step]
    · exact ⟨steps, [], rfl, counts_iff.mpr hcounts⟩

/-! ### Room for requests -/

/-- While not too many requests are remembered, one more is added if there is room, and takes the
place of the oldest one if there is none. -/
theorem Orderly.after_request (h : state.Orderly n) (hn : 1 ≤ n)
    (hbounded : state.requests.length ≤ n) (fields : Fields) :
    (state.requests.length < n ∧
      (RequestStep.request fields).after state = state.noted fields) ∨
    (state.requests.length = n ∧ ∃ old, state.IsOldest old ∧
      (RequestStep.request fields).after state = (state.noted fields).forget old) := by
  have hlength : (state.noted fields).requests.length = state.requests.length + 1 := by
    rw [h.requests_noted, List.length_append, List.length_singleton]
  rcases Nat.lt_or_eq_of_le hbounded with hroom | hfull
  · have hexcess : ((state.noted fields).requests.length - (n : Int)).toNat = 0 := by omega
    refine .inl ⟨hroom, ?_⟩
    rw [RequestStep.after, run_request state h.limited, hexcess]
    rfl
  · have hexcess : ((state.noted fields).requests.length - (n : Int)).toNat = 1 := by omega
    have hne : state.requests ≠ [] := List.ne_nil_of_length_pos (by omega)
    obtain ⟨old, hold⟩ := exists_isOldest hne
    refine .inr ⟨hfull, old, hold, ?_⟩
    rw [RequestStep.after, run_request state h.limited, hexcess, trim,
      h.take_forgettingOrder fields hold]
    rfl

/-- Then one request takes the place of another one. -/
theorem InOrder.requests_forget_noted (h : state.InOrder) (fields : Fields)
    (hid : id ∈ Table.keys state.requests) : ((state.noted fields).forget id).requests
      = Table.erase id state.requests ++ [(state.nextId, fields)] := by
  change Table.erase id (state.noted fields).requests = _
  rw [h.requests_noted, Table.erase_append_of_mem hid]

/-- Not too many are remembered after a step. -/
theorem Orderly.length_after_le (h : state.Orderly n) (hn : 1 ≤ n)
    (hbounded : state.requests.length ≤ n) (step : RequestStep) :
    (step.after state).requests.length ≤ n := by
  by_cases hrequest : step.IsRequest
  · cases step with
    | request fields =>
      rcases h.after_request hn hbounded fields with ⟨hroom, hafter⟩ | ⟨hfull, old, hold, hafter⟩
      · rw [hafter, h.requests_noted, List.length_append]
        exact hroom
      · have hlength := congrArg List.length (Table.keys_erase old state.requests)
        rw [List.length_erase_of_mem hold.mem, Table.keys, Table.keys, List.length_map,
          List.length_map] at hlength
        rw [hafter, h.requests_forget_noted fields hold.mem, List.length_append, hlength]
        simp only [List.length_singleton]
        omega
    | _ => exact hrequest.elim
  · rwa [requests_after hrequest]

/-- Nor after several. -/
theorem length_ofSteps_le (hn : 1 ≤ n) (steps : List RequestStep) :
    (ofSteps n steps).requests.length ≤ n := by
  suffices hall : ∀ state : Requests, state.Orderly n → state.requests.length ≤ n →
      (play steps state).requests.length ≤ n from
    hall _ (orderly_ofSteps n []) (Nat.zero_le n)
  induction steps with
  | nil => exact fun _ _ hbounded => hbounded
  | cons step steps ih =>
    exact fun state h hbounded => ih _ (h.after step) (h.length_after_le hn hbounded step)

/-- The request that came in last is the last one. -/
theorem Orderly.getLast?_after_request (h : state.Orderly n) (hn : 1 ≤ n)
    (hbounded : state.requests.length ≤ n) (fields : Fields) :
    ((RequestStep.request fields).after state).requests.getLast?
      = some (state.nextId, fields) := by
  rcases h.after_request hn hbounded fields with ⟨-, hafter⟩ | ⟨-, old, hold, hafter⟩
  · rw [hafter, h.requests_noted, List.getLast?_concat]
  · rw [hafter, h.requests_forget_noted fields hold.mem, List.getLast?_concat]

/-! ### What is promised -/

/-- What is promised of the requests after steps, if so many are remembered. -/
structure Remembers (limit : Nat) (steps : List RequestStep) : Prop where
  /-- There are not more than that, -/
  bounded : (ofSteps limit steps).requests.length ≤ limit
  /-- in the order in which they came in; -/
  sorted : ∃ numbers : List Nat, Table.keys (ofSteps limit steps).requests = numbers.map requestId ∧
    numbers.Pairwise (· < ·)
  /-- the newest one is among them. -/
  newest : ∀ before fields later, steps = before ++ .request fields :: later →
    (∀ step ∈ later, ¬step.IsRequest) → ∃ id,
      ((request fields).run (ofSteps limit before)).1 = .ok (.fields [("request", .str id)]) ∧
      (ofSteps limit steps).requests.getLast? = some (id, fields)
  /-- What is answered is remembered, and nobody waits for it. -/
  answered : ∀ id, Table.has id (ofSteps limit steps).responses = true →
    Table.has id (ofSteps limit steps).requests = true ∧ (ofSteps limit steps).waitersOn id = []
  /-- Nothing is forgotten unless a request comes in, -/
  kept : ∀ step : RequestStep, ¬step.IsRequest →
    (step.after (ofSteps limit steps)).requests = (ofSteps limit steps).requests
  /-- nor while there is room for it; -/
  added : ∀ fields, (ofSteps limit steps).requests.length < limit →
    ((RequestStep.request fields).after (ofSteps limit steps)).requests
      = (ofSteps limit steps).requests ++ [((ofSteps limit steps).nextId, fields)]
  /-- else it takes the place of the oldest one. -/
  replaced : ∀ fields, (ofSteps limit steps).requests.length = limit →
    ∃ old, (ofSteps limit steps).IsOldest old ∧
      ((RequestStep.request fields).after (ofSteps limit steps)).requests
        = Table.erase old (ofSteps limit steps).requests
          ++ [((ofSteps limit steps).nextId, fields)]
  /-- The first response is kept, whatever comes later, as long as the request is remembered. -/
  accepted : ∀ id body, Table.has id (ofSteps limit steps).requests = true →
    Table.has id (ofSteps limit steps).responses = false → ∃ state,
      (respond (.str id) body).run (ofSteps limit steps)
        = (.ok (.fields [("request", .str id)]), state) ∧
      ∀ later, Table.has id (play later state).requests = true →
        Table.get? id (play later state).responses = some body
  /-- Each response that is kept is one that counted when it came. -/
  responded : ∀ id body, Table.get? id (ofSteps limit steps).responses = some body →
    FirstResponse limit steps id body
  /-- Any other response changes nothing and is an error, for each text that may be an id. -/
  refused : ∀ request body, ¬(ofSteps limit steps).Accepts request →
    ((respond request body).run (ofSteps limit steps)).2 = ofSteps limit steps ∧
    (∀ answer, ((respond request body).run (ofSteps limit steps)).1 = .ok answer →
      answer.Refuses) ∧
    ∀ id, request = .str id →
      ∃ answer, ((respond request body).run (ofSteps limit steps)).1 = .ok answer

/-- Whatever happens to the requests and in whichever order: the first response is kept, and
requests are forgotten in the order that was promised, the oldest answered one first. -/
theorem ofSteps_remembers (hn : 1 ≤ n) (steps : List RequestStep) : Remembers n steps := by
  have h := orderly_ofSteps n steps
  have hbounded := length_ofSteps_le hn steps
  obtain ⟨numbers, hkeys, hsorted, -⟩ := h.numbered
  refine ⟨hbounded, ⟨numbers, hkeys, hsorted⟩, ?_, h.answered, fun _ => requests_after, ?_, ?_, ?_,
    fun _ _ => firstResponse_of_get?, fun _ body => run_respond_of_not_accepts body⟩
  · rintro before fields later rfl hlater
    have hbefore := orderly_ofSteps n before
    refine ⟨_, congrArg Prod.fst (run_request _ hbefore.limited fields), ?_⟩
    rw [ofSteps, play, List.foldl_append, List.foldl_cons]
    exact (congrArg List.getLast? (requests_play hlater)).trans
      (hbefore.getLast?_after_request hn (length_ofSteps_le hn before) fields)
  · intro fields hroom
    rcases h.after_request hn hbounded fields with ⟨-, hafter⟩ | ⟨hfull, -⟩
    · rw [hafter, h.requests_noted]
    · omega
  · intro fields hfull
    rcases h.after_request hn hbounded fields with ⟨hroom, -⟩ | ⟨-, old, hold, hafter⟩
    · omega
    · exact ⟨old, hold, by rw [hafter, h.requests_forget_noted fields hold.mem]⟩
  · intro id body hremembered hnew
    exact ⟨_, run_respond_of_accepts body hremembered hnew, fun later =>
      ((h.holds_responded hremembered body).play ⟨h.responded hremembered body, h.limited⟩
        later).get?_eq⟩

/-- Of two requests the newer one is answered, and a third one comes in. -/
def answeredNewer : List RequestStep :=
  [.request [("path", .str "/a")], .request [("path", .str "/b")], .respond (.str "req-2") [],
    .request [("path", .str "/c")]]

/-- The answered request is forgotten and not the older one. -/
theorem ofSteps_remembers_answeredNewer :
    Table.keys (ofSteps 2 answeredNewer).requests = ["req-1", "req-3"] ∧
      Remembers 2 answeredNewer :=
  ⟨rfl, ofSteps_remembers (by decide) _⟩

end Requests

end HerdBook
