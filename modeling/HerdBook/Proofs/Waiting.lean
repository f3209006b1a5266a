import HerdBook.Proofs.Remembering

/-!
# Who waits for a response

Somebody starts to wait for the response to a request, between any other steps: requests come in
and are forgotten, are responded to, others wait, time passes, and all have turns. What somebody who
waits ends with is said by the steps alone: by the response to the request that counted, if there
was one in time (`Requests.InTime`), where time is kept by a timer (`Requests.Timer`) that knows
nothing of who waits. What has become of somebody who waits follows the timer (`Requests.Fate`),
since they are registered as long as a response to the request can still count.

## Main results

* `Requests.Fate.after`: what a step makes of somebody who waits.
* `Requests.exists_run_await`: to wait without interruption is to start, and then such steps.
* `Requests.ofSteps_keepsWord`: who waits ends with the response, if it is in time, and else with a
  refusal.
-/

namespace HerdBook

open Effect

/-- The response is what the waiter ends with. -/
def Waiter.IsAnswered (w : Waiter) (body : Fields) : Prop :=
  ∃ left, w.state = .decided (.answered body) left

/-- The waiter has ended. -/
def Waiter.HasEnded (w : Waiter) : Prop := ∃ how, w.state = .decided how 0

namespace Requests

/-! ### Timers -/

/-- The timer of somebody who waits. -/
inductive Timer where
  /-- It runs until its deadline is reached, or for ever. -/
  | running (deadline : Option Rat)
  /-- Its deadline is reached, and it expires after a number of turns. -/
  | due (turns : Nat)

namespace Timer

/-- The turns from the deadline of a timer until it expires. -/
def turnsToExpire : Nat := timeUpTurns - givingUpTurns

/-- The timer that is started with a limit of time; none at all is over before it begins. -/
def start (clock : Rat) (timeout : Value) : Timer :=
  match timeout.amount?.map Patience.ofSeconds with
  | some .none => .due 0
  | some .moment => .due turnsToExpire
  | some (.seconds q) => .running (some (clock + q))
  | some .endless => .running none
  | none => .running none

/-- The timer after a step. -/
def after : RequestStep → Timer → Timer
  | .expire time, .running (some deadline) =>
    if deadline ≤ time then .due turnsToExpire else .running (some deadline)
  | .resume turns, .due left => .due (left - turns)
  | _, timer => timer

/-- The timer after steps. -/
def play (steps : List RequestStep) (timer : Timer) : Timer :=
  steps.foldl (fun timer step => after step timer) timer

/-- The timer has expired. -/
def HasExpired (timer : Timer) : Prop := timer = .due 0

/-- The timer has not reached its deadline. -/
def IsRunning : Timer → Prop
  | .running _ => True
  | .due _ => False

end Timer

/-- A timer without a deadline runs for ever. -/
theorem Timer.play_running_none (steps : List RequestStep) :
    Timer.play steps (.running none) = .running none := by
  induction steps with
  | nil => rfl
  | cons step steps ih =>
    have hafter : Timer.after step (.running none) = .running none := by cases step <;> rfl
    rw [Timer.play, List.foldl_cons, hafter]
    exact ih

variable {state : Requests} {id : String} {limit : Int} {body : Fields} {w : Waiter}
  {before later steps : List RequestStep} {timeout : Value} {ticket : Nat}

/-! ### Who waits through a step -/

/-- The request was remembered and is forgotten. -/
structure IsGone (id : String) (state : Requests) : Prop where
  isIssued : IsIssued id state
  forgotten : Table.has id state.requests = false

/-- It remains so. -/
theorem IsGone.after (hg : IsGone id state) (h : state.Orderly limit)
    (step : RequestStep) : IsGone id (step.after state) := by
  refine ⟨hg.isIssued.after h step, Bool.eq_false_iff.mpr fun hremembered => ?_⟩
  exact Bool.false_ne_true (hg.forgotten.symm.trans (h.has_of_after hg.isIssued hremembered))

/-- A response to the request would reach the waiter, if there can be one at all. -/
structure IsOpen (id : String) (state : Requests) (w : Waiter) : Prop where
  unanswered : Table.has id state.responses = false
  registered : w.registered = true ∨ IsGone id state

/-- What has become of a waiter for a request by the time that its timer tells: it is answered if
that was promised, and otherwise it waits or has expired as the timer says. -/
inductive Fate (id : String) (promised : Fields → Prop) (state : Requests) (timer : Timer)
    (w : Waiter) : Prop
  | waiting (hs : w.state = .waiting) (ht : timer = .running w.deadline)
      (ho : IsOpen id state w)
  | expired (left : Nat) (hs : w.state = .decided .expired left)
      (ht : timer = .due (left - givingUpTurns)) (hle : left ≤ timeUpTurns)
      (ho : givingUpTurns < left → IsOpen id state w) (hr : left = 0 → w.registered = false)
  | answered {body : Fields} {left : Nat} (hs : w.state = .decided (.answered body) left)
      (hle : left ≤ timeUpTurns) (hp : promised body)

variable {promised promised' : Fields → Prop} {state' : Requests} {timer : Timer} {w' : Waiter}

/-- Nothing has become of a waiter who is still in the state in which it was. -/
theorem Fate.carry (hf : Fate id promised state timer w)
    (hp : ∀ body, promised body → promised' body) (ho : IsOpen id state w → IsOpen id state' w')
    (hs : w'.state = w.state) (hd : w'.deadline = w.deadline)
    (hr : w.registered = false → w'.registered = false) :
    Fate id promised' state' timer w' := by
  cases hf with
  | waiting hs' ht ho' => exact .waiting (hs.trans hs') (hd ▸ ht) (ho ho')
  | expired left hs' ht hle ho' hr' =>
    exact .expired left (hs.trans hs') ht hle (fun hlt => ho (ho' hlt)) fun hzero => hr (hr' hzero)
  | answered hs' hle hp' => exact .answered (hs.trans hs') hle (hp _ hp')

/-- A waiter whom a response does not change stays as it was, reached or not. -/
theorem state_wake_eq_self (h : answered body (answeredTurns w) w.state = w.state) :
    (wake id body w).state = w.state := by
  unfold wake
  split
  · exact h
  · rfl

/-- A waiter whom a response reaches in time is answered. -/
theorem Fate.wake (hf : Fate id promised state timer w) (hrequest : w.request = .str id)
    (hremembered : Table.has id state.requests = true)
    (hp : ∀ body, promised body → promised' body) (hnew : ¬timer.HasExpired → promised' body) :
    Fate id promised' state' timer (wake id body w) ∧
      (¬timer.HasExpired → ∃ other, (Requests.wake id body w).IsAnswered other) := by
  have hsame : w.request.same (.str id) = true := by rw [hrequest]; simp [Value.same]
  have hregistered : IsOpen id state w → w.registered = true := fun ho =>
    ho.registered.resolve_right fun hg => by simp [hg.forgotten] at hremembered
  have hwake : w.registered = true → Requests.wake id body w
      = { w with registered := false, state := Requests.answered body (answeredTurns w) w.state } :=
    fun hr => if_pos (by rw [hr, hsame]; rfl)
  cases hf with
  | waiting hs ht ho =>
    have hrunning : ¬timer.HasExpired := fun hover => by cases ht.symm.trans hover
    have hstate :
        (Requests.wake id body w).state = .decided (.answered body) (answeredTurns w) := by
      rw [hwake (hregistered ho), hs]
      rfl
    refine ⟨.answered hstate ?_ (hnew hrunning), fun _ => ⟨body, _, hstate⟩⟩
    unfold answeredTurns
    split <;> decide
  | expired left hs ht hle ho hr =>
    by_cases hlt : givingUpTurns < left
    · have hdue : ¬timer.HasExpired := by
        rw [ht]
        exact fun hover => absurd (Timer.due.inj hover) (by omega)
      have hstate : (Requests.wake id body w).state
          = .decided (.answered body) (left - savedTurns) := by
        rw [hwake (hregistered (ho hlt)), hs]
        exact if_pos hlt
      exact ⟨.answered hstate (by omega) (hnew hdue), fun _ => ⟨body, _, hstate⟩⟩
    · have hover : timer.HasExpired := by
        rw [ht, Nat.sub_eq_zero_of_le (Nat.le_of_not_lt hlt)]
        rfl
      have hstate : (Requests.wake id body w).state = w.state :=
        state_wake_eq_self (by rw [hs]; exact if_neg hlt)
      refine ⟨.expired left (hstate.trans hs) ht hle (fun h => absurd h hlt) fun hzero => ?_,
        fun hnot => absurd hover hnot⟩
      rw [Requests.wake, if_neg (by simp [hr hzero])]
      exact hr hzero
  | @answered other left hs hle hp' =>
    have hstate : (Requests.wake id body w).state = .decided (.answered other) left :=
      (state_wake_eq_self (by rw [hs]; rfl)).trans hs
    exact ⟨.answered hstate hle (hp _ hp'), fun _ => ⟨other, _, hstate⟩⟩

/-- A waiter expires with its timer. -/
theorem Fate.lapse (hf : Fate id promised state timer w)
    (hp : ∀ body, promised body → promised' body) (time : Rat) :
    Fate id promised' (expire time state) (Timer.after (.expire time) timer)
      (lapse time w) := by
  have hopen : ∀ w', w'.registered = w.registered → IsOpen id state w →
      IsOpen id (expire time state) w' := fun w' hr ho =>
    ⟨ho.unanswered, ho.registered.imp (hr.trans ·) fun hg => ⟨hg.isIssued, hg.forgotten⟩⟩
  cases hf with
  | waiting hs ht ho =>
    cases hd : w.deadline with
    | none =>
      rw [Requests.lapse, hs, hd, ht, hd]
      exact .waiting hs (by rw [hd]; rfl) (hopen w rfl ho)
    | some deadline =>
      rw [Requests.lapse, hs, hd, ht, hd]
      dsimp only [Timer.after]
      split
      · exact .expired timeUpTurns rfl rfl (Nat.le_refl _) (fun _ => hopen _ rfl ho) nofun
      · exact .waiting hs (by rw [hd]) (hopen w rfl ho)
  | expired left hs ht hle ho hr =>
    rw [Requests.lapse, hs, ht]
    exact .expired left hs rfl hle (fun hlt => hopen w rfl (ho hlt)) hr
  | answered hs hle hp' =>
    rw [Requests.lapse, hs]
    exact .answered hs hle (hp _ hp')

/-- A waiter has its turns with its timer. -/
theorem Fate.takeTurns (hf : Fate id promised state timer w)
    (hp : ∀ body, promised body → promised' body) (turns : Nat) :
    Fate id promised' (resume turns state) (Timer.after (.resume turns) timer)
      (takeTurns turns w) := by
  cases hf with
  | waiting hs ht ho =>
    rw [Requests.takeTurns, hs, ht]
    exact .waiting hs rfl ⟨ho.unanswered, ho.registered.imp_right fun hg =>
      ⟨hg.isIssued, hg.forgotten⟩⟩
  | expired left hs ht hle ho hr =>
    rw [Requests.takeTurns, hs, ht]
    refine .expired (left - turns) rfl ?_ (Nat.le_trans (Nat.sub_le _ _) hle) (fun hlt => ?_)
      fun hzero => ?_
    · exact congrArg Timer.due (by omega)
    · obtain ⟨hunanswered, hregistered⟩ := ho (by omega)
      refine ⟨hunanswered, hregistered.imp (fun hr => ?_) fun hg => ⟨hg.isIssued, hg.forgotten⟩⟩
      have hlt' : turns < left := by omega
      simp [hr, hlt']
    · have hnot : ¬turns < left := by omega
      simp [hnot]
  | answered hs hle hp' =>
    rw [Requests.takeTurns, hs]
    exact .answered rfl (Nat.le_trans (Nat.sub_le _ _) hle) (hp _ hp')

/-- In the change everybody remains who they are and ends with the response they were to end
with. -/
structure Bears (f : Waiter → Waiter) : Prop where
  ticket : ∀ w, (f w).ticket = w.ticket
  request : ∀ w, (f w).request = w.request
  timeout : ∀ w, (f w).timeout = w.timeout
  answered : ∀ w body, w.IsAnswered body → (f w).IsAnswered body

theorem bears_self : Bears fun w => w :=
  ⟨fun _ => rfl, fun _ => rfl, fun _ => rfl, fun _ _ h => h⟩

theorem Bears.comp {f g : Waiter → Waiter} (hg : Bears g) (hf : Bears f) : Bears (g ∘ f) :=
  ⟨fun w => (hg.ticket _).trans (hf.ticket w), fun w => (hg.request _).trans (hf.request w),
    fun w => (hg.timeout _).trans (hf.timeout w),
    fun w body h => hg.answered _ body (hf.answered w body h)⟩

theorem bears_unregistered (id : String) : Bears (unregistered id) := by
  refine ⟨fun w => ?_, fun w => ?_, fun w => ?_, fun w body h => ?_⟩
  all_goals unfold unregistered
  all_goals split
  all_goals first | rfl | exact h

theorem bears_wake (id : String) (body : Fields) : Bears (wake id body) := by
  refine ⟨fun w => ?_, fun w => ?_, fun w => ?_, fun w other ⟨left, hs⟩ => ?_⟩
  all_goals unfold wake
  all_goals split
  all_goals first | rfl | exact ⟨left, by simp [hs, answered]⟩

theorem bears_lapse (time : Rat) : Bears (lapse time) := by
  refine ⟨fun w => ?_, fun w => ?_, fun w => ?_, fun w other ⟨left, hs⟩ => ⟨left, by
    simp [lapse, hs]⟩⟩
  all_goals unfold lapse
  all_goals split
  all_goals first | rfl | (split <;> rfl)

theorem bears_takeTurns (turns : Nat) : Bears (takeTurns turns) := by
  refine ⟨fun w => ?_, fun w => ?_, fun w => ?_, fun w other ⟨left, hs⟩ => ⟨left - turns, by
    simp [takeTurns, hs]⟩⟩
  all_goals unfold takeTurns
  all_goals split <;> rfl

/-- What a step has made of a waiter: it is changed as others are, and the new state tells what has
become of it. -/
structure Passes (id : String) (promised : Fields → Prop) (state state' : Requests) (timer : Timer)
    (f : Waiter → Waiter) (w : Waiter) : Prop where
  waiters : ∃ more, state'.waiters = state.waiters.map f ++ more
  bears : Bears f
  fate : Fate id promised state' timer (f w)

/-- A waiter when a request is forgotten: if it is its own one, it can be woken no more. -/
theorem Passes.forget {f : Waiter → Waiter} (hp : Passes id promised state state' timer f w)
    (hrequest : w.request = .str id) (h : state'.InOrder) {old : String}
    (hold : IsIssued old state') :
    ∃ f', Passes id promised state (state'.forget old) timer f' w := by
  obtain ⟨⟨more, hwaiters⟩, hbears, hfate⟩ := hp
  refine ⟨unregistered old ∘ f, ⟨more.map (unregistered old), ?_⟩,
    (bears_unregistered old).comp hbears,
    hfate.carry (fun _ hp => hp) (fun ho => ⟨?_, ?_⟩) ?_ ?_ ?_⟩
  · rw [waiters_forget, hwaiters, List.map_append, List.map_map]
  · change (Table.get? id (Table.erase old state'.responses)).isSome = false
    rw [Table.get?_erase old id h.once]
    split
    · rfl
    · exact ho.unanswered
  · by_cases hsame : old = id
    · subst hsame
      exact .inr ⟨hold, Bool.eq_false_iff.mpr fun hr => (h.has_of_forget hr).1 rfl⟩
    · refine ho.registered.imp (fun hr => ?_) fun hg => ⟨hg.isIssued,
        Bool.eq_false_iff.mpr fun hr =>
          Bool.false_ne_true (hg.forgotten.symm.trans (h.has_of_forget hr).2)⟩
      rw [Function.comp, unregistered, hbears.request, hrequest,
        if_neg (by simpa [Value.same] using Ne.symm hsame)]
      exact hr
  all_goals rw [Function.comp, unregistered]
  all_goals split
  all_goals first | rfl | exact fun hr => hr | exact fun _ => rfl

/-- A waiter when a request comes in. -/
theorem Fate.after_request (hf : Fate id promised state timer w) (hrequest : w.request = .str id)
    (h : state.Orderly limit) (fields : Fields)
    (hp : ∀ body, promised body → promised' body) : ∃ f,
      Passes id promised' state ((RequestStep.request fields).after state) timer f w := by
  refine h.request_induction (P := fun s => ∃ f, Passes id promised' state s timer f w) fields
    ⟨fun w => w, ⟨[], ?_⟩, bears_self, hf.carry hp (fun ho => ⟨ho.unanswered, ?_⟩) rfl rfl
      fun hr => hr⟩ fun s old hs hold ⟨f, hpasses⟩ => hpasses.forget hrequest hs hold
  · rw [List.map_id', List.append_nil]
    rfl
  · refine ho.registered.imp_right fun ⟨⟨k, hk, hid⟩, hforgotten⟩ =>
      ⟨⟨k, Nat.le_succ_of_le hk, hid⟩, Bool.eq_false_iff.mpr fun hr => ?_⟩
    exact Bool.false_ne_true (hforgotten.symm.trans (h.has_of_noted ⟨k, hk, hid⟩ hr))

/-- A waiter when there is a response: one that counts and is to its own request reaches it in
time. -/
theorem Fate.after_respond (hf : Fate id promised state timer w) (hrequest : w.request = .str id)
    (request : Value) (body : Fields) (hp : ∀ body, promised body → promised' body)
    (hnew : request = .str id → state.Accepts (.str id) → ¬timer.HasExpired → promised' body) :
    ∃ f, Passes id promised' state ((RequestStep.respond request body).after state) timer f w ∧
      (request = .str id → state.Accepts (.str id) → ¬timer.HasExpired →
        ∃ other, (f w).IsAnswered other) := by
  by_cases haccepts : state.Accepts request
  · have hother := haccepts
    obtain ⟨other, rfl, hremembered, hunanswered⟩ := hother
    have hafter : (RequestStep.respond (.str other) body).after state
        = state.responded other body :=
      congrArg Prod.snd (run_respond_of_accepts body hremembered hunanswered)
    by_cases hsame : other = id
    · subst hsame
      obtain ⟨hfate, hanswered⟩ : Fate other promised' (state.responded other body) timer
          (Requests.wake other body w) ∧ _ :=
        hf.wake hrequest hremembered hp (hnew rfl haccepts)
      rw [hafter]
      exact ⟨_, ⟨⟨[], (List.append_nil _).symm⟩, bears_wake other body, hfate⟩,
        fun _ _ => hanswered⟩
    · rw [hafter]
      have hself : Requests.wake other body w = w := if_neg (by
        rw [hrequest]
        simp [Value.same, Ne.symm hsame])
      refine ⟨_, ⟨⟨[], (List.append_nil _).symm⟩, bears_wake other body, ?_⟩,
        fun heq => absurd (Value.str.inj heq) hsame⟩
      rw [hself]
      refine hf.carry hp (fun ho => ⟨?_, ?_⟩) rfl rfl fun hr => hr
      · change (Table.get? id (Table.set other body state.responses)).isSome = false
        rw [Table.get?_set, if_neg hsame]
        exact ho.unanswered
      · exact ho.registered.imp_right fun hg => ⟨hg.isIssued, hg.forgotten⟩
  · have hafter : (RequestStep.respond request body).after state = state :=
      (run_respond_of_not_accepts body haccepts).1
    rw [hafter]
    refine ⟨fun w => w, ⟨⟨[], by rw [List.map_id', List.append_nil]⟩, bears_self,
      hf.carry hp (fun ho => ho) rfl rfl fun hr => hr⟩, ?_⟩
    rintro rfl haccepts'
    exact absurd haccepts' haccepts

/-- A waiter through a step. -/
theorem Fate.after (hf : Fate id promised state timer w) (hrequest : w.request = .str id)
    (h : state.Orderly limit) (step : RequestStep)
    (hp : ∀ body, promised body → promised' body)
    (hnew : ∀ body, step = .respond (.str id) body → state.Accepts (.str id) →
      ¬timer.HasExpired → promised' body) :
    ∃ f, Passes id promised' state (step.after state) (Timer.after step timer) f w ∧
      ∀ body, step = .respond (.str id) body → state.Accepts (.str id) → ¬timer.HasExpired →
        ∃ other, (f w).IsAnswered other := by
  cases step with
  | request fields =>
    obtain ⟨f, hpasses⟩ := hf.after_request hrequest h fields hp
    exact ⟨f, hpasses, fun body hstep => by cases hstep⟩
  | respond request body =>
    obtain ⟨f, hpasses, hanswered⟩ := hf.after_respond hrequest request body hp fun heq =>
      hnew body (heq ▸ rfl)
    exact ⟨f, hpasses, fun other heq => hanswered (RequestStep.respond.inj heq).1⟩
  | wait request timeout =>
    obtain ⟨other, hrun, -⟩ := exists_started state request timeout
    refine ⟨fun w => w, ⟨⟨[other], by rw [RequestStep.after, hrun, List.map_id']⟩, bears_self,
      hf.carry hp (fun ho => ?_) rfl rfl fun hr => hr⟩, fun body hstep => by cases hstep⟩
    exact ⟨ho.unanswered, ho.registered.imp_right fun hg => hg.after h _⟩
  | expire time =>
    exact ⟨_, ⟨⟨[], (List.append_nil _).symm⟩, bears_lapse time, hf.lapse hp time⟩,
      fun body hstep => by cases hstep⟩
  | resume turns =>
    exact ⟨_, ⟨⟨[], (List.append_nil _).symm⟩, bears_takeTurns turns, hf.takeTurns hp turns⟩,
      fun body hstep => by cases hstep⟩
  | elsewhere ids tickets =>
    refine ⟨fun w => w, ⟨⟨[], ?_⟩, bears_self, hf.carry hp (fun ho => ?_) rfl rfl fun hr => hr⟩,
      fun body hstep => by cases hstep⟩
    · rw [List.map_id', List.append_nil]
      rfl
    · exact ⟨ho.unanswered, ho.registered.imp_right fun hg => hg.after h _⟩

/-! ### Tickets -/

/-- Everybody who waits has a ticket that was handed out. -/
def Ticketed (state : Requests) : Prop := ∀ w ∈ state.waiters, w.ticket ≤ state.tickets

theorem Ticketed.map (h : state.Ticketed) {f : Waiter → Waiter} (hf : Bears f)
    (hwaiters : state'.waiters = state.waiters.map f) (htickets : state.tickets ≤ state'.tickets) :
    state'.Ticketed := by
  rw [Ticketed, hwaiters, List.forall_mem_map]
  intro w hw
  rw [hf.ticket]
  exact Nat.le_trans (h w hw) htickets

/-- So it is after every step. -/
theorem Ticketed.after (ht : state.Ticketed) (h : state.Orderly limit)
    (step : RequestStep) : (step.after state).Ticketed := by
  cases step with
  | request fields =>
    exact h.request_induction (P := Ticketed) fields ht fun s old _ _ hs =>
      hs.map (bears_unregistered old) (waiters_forget s old) (Nat.le_refl _)
  | respond request body =>
    by_cases haccepts : state.Accepts request
    · obtain ⟨other, rfl, hremembered, hnew⟩ := haccepts
      rw [RequestStep.after, run_respond_of_accepts body hremembered hnew]
      exact ht.map (bears_wake other body) rfl (Nat.le_refl _)
    · rw [RequestStep.after, (run_respond_of_not_accepts body haccepts).1]
      exact ht
  | wait request timeout =>
    obtain ⟨w, hrun, hticket, -⟩ := exists_started state request timeout
    rw [RequestStep.after, hrun]
    intro w' hw'
    rcases List.mem_append.mp hw' with hw' | hw'
    · exact Nat.le_succ_of_le (ht w' hw')
    · exact Nat.le_of_eq ((congrArg Waiter.ticket (List.mem_singleton.mp hw')).trans hticket)
  | expire time => exact ht.map (bears_lapse time) rfl (Nat.le_refl _)
  | resume turns => exact ht.map (bears_takeTurns turns) rfl (Nat.le_refl _)
  | elsewhere ids tickets => exact fun w hw => Nat.le_add_right_of_le (ht w hw)

/-- So it is after any steps. -/
theorem ticketed_ofSteps (steps : List RequestStep) :
    (ofSteps limit steps).Ticketed := by
  induction steps using List.reverseRecOn with
  | nil => exact nofun
  | append_singleton steps step ih =>
    rw [ofSteps_append]
    exact ih.after (orderly_ofSteps limit steps) step

/-! ### Responses in time -/

/-- The timer of who starts to wait after some steps, after further ones. -/
def timerAfter (limit : Int) (before : List RequestStep) (timeout : Value)
    (later : List RequestStep) : Timer :=
  Timer.play later (.start (ofSteps limit before).clock timeout)

/-- There is a response that counts, to the request that somebody starts to wait for between these
steps: before it, and the request is still remembered, or after it and before the timer expires. -/
inductive InTime (limit : Int) (before : List RequestStep) (id : String) (timeout : Value)
    (later : List RequestStep) (body : Fields) : Prop
  | early (hfirst : FirstResponse limit before id body)
      (hremembered : Table.has id (ofSteps limit before).requests = true)
  | meanwhile (between rest : List RequestStep)
      (hlater : later = between ++ .respond (.str id) body :: rest)
      (hcounts : Counts limit (before ++ .wait (.str id) timeout :: between) id body)
      (htimer : ¬(timerAfter limit before timeout between).HasExpired)

theorem InTime.append (h : InTime limit before id timeout later body)
    (more : List RequestStep) : InTime limit before id timeout (later ++ more) body := by
  cases h with
  | early hfirst hremembered => exact .early hfirst hremembered
  | meanwhile between rest hlater hcounts htimer =>
    exact .meanwhile between (rest ++ more) (by rw [hlater]; simp) hcounts htimer

/-- It is the first response to the request, and the only one that counts. -/
theorem InTime.firstResponse (h : InTime limit before id timeout later body) :
    FirstResponse limit (before ++ .wait (.str id) timeout :: later) id body := by
  cases h with
  | early hfirst => exact hfirst.append _
  | meanwhile between rest hlater hcounts =>
    exact ⟨before ++ .wait (.str id) timeout :: between, rest, by rw [hlater]; simp, hcounts⟩

/-- A response in time was in time before the last step, or is that step. -/
theorem InTime.of_append_singleton {step : RequestStep}
    (h : InTime limit before id timeout (later ++ [step]) body) :
    InTime limit before id timeout later body ∨ (step = .respond (.str id) body ∧
      Counts limit (before ++ .wait (.str id) timeout :: later) id body ∧
      ¬(timerAfter limit before timeout later).HasExpired) := by
  cases h with
  | early hfirst hremembered => exact .inl (.early hfirst hremembered)
  | meanwhile between rest hlater hcounts htimer =>
    rcases append_singleton_eq_append_cons_iff.mp hlater with ⟨rfl, hstep, -⟩ | ⟨rest, -, hrest⟩
    · exact .inr ⟨hstep, hcounts, htimer⟩
    · exact .inl (.meanwhile between rest hrest hcounts htimer)

/-! ### Who starts to wait -/

/-- The value is a limit of time: none at all, or a number of seconds. -/
def IsTimeout (timeout : Value) : Prop :=
  timeout.isNull = true ∨ ∃ seconds, Requests.seconds timeout = .ok seconds

/-- Nobody waits without a limit of time unless none was given, and every limit stands for
seconds. -/
theorem IsTimeout.cases (h : IsTimeout timeout) : timeout = .null ∨
    ∃ amount seconds, timeout.amount? = some amount ∧ Requests.seconds timeout = .ok seconds := by
  rcases h with hnull | ⟨seconds, hseconds⟩
  · cases timeout <;> first | exact .inl rfl | exact nomatch hnull
  · right
    cases timeout <;> first | exact ⟨_, seconds, rfl, hseconds⟩ | exact nomatch hseconds

/-- The state and the deadline of who starts to wait follow the timer that is started. -/
theorem IsTimeout.prospect (h : IsTimeout timeout) (clock : Rat) :
    (∃ deadline, Requests.prospect clock timeout = (.waiting, deadline) ∧
      Timer.start clock timeout = .running deadline) ∨
    ∃ left, Requests.prospect clock timeout = (.decided .expired left, none) ∧ 0 < left ∧
      left ≤ timeUpTurns ∧ Timer.start clock timeout = .due (left - givingUpTurns) := by
  rcases h.cases with rfl | ⟨amount, seconds, hamount, hseconds⟩
  · exact .inl ⟨none, rfl, rfl⟩
  · unfold Requests.prospect Timer.start
    rw [hamount, Option.map_some, hseconds]
    cases Patience.ofSeconds amount with
    | none => exact .inr ⟨noTimeTurns, rfl, by decide, by decide, rfl⟩
    | moment => exact .inr ⟨timeUpTurns, rfl, by decide, by decide, rfl⟩
    | seconds q => exact .inl ⟨some (clock + q), rfl, rfl⟩
    | endless => exact .inl ⟨none, rfl, rfl⟩

/-- Who starts to wait is answered if the request has a response, and otherwise waits with the
timer. -/
theorem exists_fate_start (h : IsTimeout timeout) (state : Requests) (id : String)
    (hpromised : ∀ body, Table.get? id state.responses = some body → promised body) :
    ∃ w : Waiter, (start (.str id) timeout).run state
        = (.ok w, { state with tickets := state.tickets + 1, waiters := state.waiters ++ [w] }) ∧
      w.ticket = state.tickets + 1 ∧ w.request = .str id ∧ w.timeout = timeout ∧
      Fate id promised ((RequestStep.wait (.str id) timeout).after state)
        (.start state.clock timeout) w ∧
      ∀ body, Table.get? id state.responses = some body → w.IsAnswered body := by
  refine ⟨_, rfl, ?_⟩
  have hresponse : responseTo (.str id) state = .ok (Table.get? id state.responses) := rfl
  rw [hresponse]
  cases hbody : Table.get? id state.responses with
  | some body =>
    refine ⟨rfl, rfl, rfl, .answered rfl (Nat.zero_le _) (hpromised body hbody), ?_⟩
    rintro other ⟨rfl⟩
    exact ⟨0, rfl⟩
  | none =>
    have hopen : ∀ w : Waiter, w.registered = true →
        IsOpen id ((RequestStep.wait (.str id) timeout).after state) w := fun w hr =>
      ⟨by change (Table.get? id state.responses).isSome = false; rw [hbody]; rfl, .inl hr⟩
    rcases h.prospect state.clock with
      ⟨deadline, hprospect, htimer⟩ | ⟨left, hprospect, hpos, hle, htimer⟩
    · dsimp only
      rw [hprospect, htimer]
      exact ⟨rfl, rfl, rfl, .waiting rfl rfl (hopen _ rfl), nofun⟩
    · dsimp only
      rw [hprospect, htimer]
      exact ⟨rfl, rfl, rfl, .expired left rfl rfl hle (fun _ => hopen _ rfl) (by omega), nofun⟩

/-! ### Whoever waits -/

/-- The state after steps among which somebody starts to wait. -/
def stateAfter (limit : Int) (before : List RequestStep) (id : String) (timeout : Value)
    (later : List RequestStep) : Requests :=
  ofSteps limit (before ++ .wait (.str id) timeout :: later)

/-- The ticket that is given to who starts to wait after steps. -/
def ticketAfter (limit : Int) (before : List RequestStep) : Nat :=
  (ofSteps limit before).tickets + 1

/-- This is the waiter who started, and what has become of it. -/
structure Watched (limit : Int) (before : List RequestStep) (id : String) (timeout : Value)
    (later : List RequestStep) (w : Waiter) : Prop where
  found : (stateAfter limit before id timeout later).waiter? (ticketAfter limit before) = some w
  onRequest : w.request = .str id
  withTimeout : w.timeout = timeout
  fate : Fate id (InTime limit before id timeout later) (stateAfter limit before id timeout later)
    (timerAfter limit before timeout later) w
  answered : ∀ body, InTime limit before id timeout later body → w.IsAnswered body

/-- Who is answered was promised it. -/
theorem Fate.promised_of_isAnswered (hf : Fate id promised state timer w)
    (h : w.IsAnswered body) : promised body := by
  obtain ⟨left, hs⟩ := h
  cases hf with
  | waiting hs' => exact nomatch hs.symm.trans hs'
  | expired left' hs' => exact nomatch hs.symm.trans hs'
  | answered hs' hle hp =>
    obtain ⟨hhow, -⟩ := WaiterState.decided.inj (hs.symm.trans hs')
    exact WaiterEnd.answered.inj hhow ▸ hp

/-- A waiter is found by its ticket when all are changed and others come. -/
theorem waiter?_eq {f : Waiter → Waiter} (hf : Bears f) {more : List Waiter}
    (hwaiters : state'.waiters = state.waiters.map f ++ more)
    (h : state.waiter? ticket = some w) : state'.waiter? ticket = some (f w) := by
  have hmap : (state.waiters.map f).find? (fun w => w.ticket == ticket)
      = (state.waiters.find? fun w => w.ticket == ticket).map f := by
    rw [List.find?_map]
    exact congrArg (Option.map f) (congrArg (state.waiters.find? ·) (funext fun w => by
      rw [Function.comp, hf.ticket]))
  rw [waiter?] at h
  rw [waiter?, hwaiters, List.find?_append, hmap, h]
  rfl

theorem exists_watched_start (ht : IsTimeout timeout)
    (before : List RequestStep) (id : String) : ∃ w, Watched limit before id timeout [] w := by
  have hpromised : ∀ body, Table.get? id (ofSteps limit before).responses = some body →
      InTime limit before id timeout [] body := fun body hbody =>
    .early (firstResponse_of_get? hbody)
      ((orderly_ofSteps limit before).answered id (by rw [Table.has, hbody]; rfl)).1
  obtain ⟨w, hrun, hticket, hrequest, htimeout, hfate, hanswered⟩ :=
    exists_fate_start ht (ofSteps limit before) id hpromised
  have hstate : stateAfter limit before id timeout []
      = (RequestStep.wait (.str id) timeout).after (ofSteps limit before) := ofSteps_append _ _ _
  refine ⟨w, ?_, hrequest, htimeout, hstate ▸ hfate, fun body hbody => hanswered body ?_⟩
  · have hothers : (ofSteps limit before).waiter? (ticketAfter limit before) = none := by
      refine List.find?_eq_none.mpr fun other hother => ?_
      have := ticketed_ofSteps before other hother
      simp only [ticketAfter, beq_iff_eq]
      omega
    rw [waiter?] at hothers
    rw [hstate, RequestStep.after, hrun, waiter?, List.find?_append, hothers, Option.none_or,
      List.find?_singleton, if_pos (by simpa [ticketAfter] using hticket)]
  · cases hbody with
    | early hfirst hremembered =>
      obtain ⟨before', later', rfl, hcounts⟩ := hfirst
      exact (hcounts.holds later').get?_eq hremembered
    | meanwhile between rest hlater => exact absurd hlater.symm (by simp)

/-- Whatever steps come after somebody starts to wait, this is what has become of them. -/
theorem exists_watched (ht : IsTimeout timeout) (before : List RequestStep)
    (id : String) (later : List RequestStep) : ∃ w, Watched limit before id timeout later w := by
  induction later using List.reverseRecOn with
  | nil => exact exists_watched_start ht before id
  | append_singleton later step ih =>
    obtain ⟨w, hw⟩ := ih
    have horderly : (stateAfter limit before id timeout later).Orderly limit :=
      orderly_ofSteps limit _
    have hstate : stateAfter limit before id timeout (later ++ [step])
        = step.after (stateAfter limit before id timeout later) := by
      rw [stateAfter, ← List.cons_append, ← List.append_assoc, ofSteps_append]
      rfl
    have htimer : timerAfter limit before timeout (later ++ [step])
        = Timer.after step (timerAfter limit before timeout later) := List.foldl_append
    have hcounts : (stateAfter limit before id timeout later).Accepts (.str id) → ∀ body,
        Counts limit (before ++ .wait (.str id) timeout :: later) id body := by
      rintro ⟨other, hother, hboth⟩ body
      obtain rfl := Value.str.inj hother
      exact counts_iff.mpr hboth
    obtain ⟨f, hpasses, hanswered⟩ := hw.fate.after hw.onRequest horderly step
      (fun body h => h.append [step]) fun body hstep haccepts hover =>
        .meanwhile later [] (hstep ▸ rfl) (hcounts haccepts body) hover
    obtain ⟨more, hwaiters⟩ := hpasses.waiters
    refine ⟨f w, ?_, (hpasses.bears.request w).trans hw.onRequest,
      (hpasses.bears.timeout w).trans hw.withTimeout, ?_, fun body hbody => ?_⟩
    · rw [hstate]
      exact waiter?_eq hpasses.bears hwaiters hw.found
    · rw [hstate, htimer]
      exact hpasses.fate
    · rcases hbody.of_append_singleton with hbody' | ⟨rfl, hcount, hover⟩
      · exact hpasses.bears.answered w body (hw.answered body hbody')
      · obtain ⟨hremembered, hnew⟩ := counts_iff.mp hcount
        obtain ⟨other, hother⟩ := hanswered body rfl ⟨id, rfl, hremembered, hnew⟩ hover
        have htime := hpasses.fate.promised_of_isAnswered hother
        exact firstResponse_unique htime.firstResponse hbody.firstResponse ▸ hother

/-! ### What is promised -/

/-- What is promised to who starts to wait for the response to a request with a limit of time,
between any other steps. -/
structure KeepsWord (limit : Int) (before : List RequestStep) (id : String) (timeout : Value)
    (later : List RequestStep) (w : Waiter) : Prop where
  found : (stateAfter limit before id timeout later).waiter? (ticketAfter limit before) = some w
  /-- One response to the request counts at most, -/
  once : ∀ body other,
    FirstResponse limit (before ++ .wait (.str id) timeout :: later) id body →
    FirstResponse limit (before ++ .wait (.str id) timeout :: later) id other → body = other
  /-- and only with this one the wait may end; -/
  only : ∀ body, w.HasEnded →
    outcomeOf (ticketAfter limit before) (stateAfter limit before id timeout later)
      = .ok (.fields [("body", .object body)]) →
    FirstResponse limit (before ++ .wait (.str id) timeout :: later) id body
  /-- it does when the response is in time, -/
  answered : ∀ body, InTime limit before id timeout later body → w.HasEnded →
    outcomeOf (ticketAfter limit before) (stateAfter limit before id timeout later)
      = .ok (.fields [("body", .object body)])
  /-- and else with a refusal, and nobody is registered any more. -/
  refused : (∀ body, ¬InTime limit before id timeout later body) → w.HasEnded → ∃ answer,
    timedOut (.str id) timeout = .ok answer ∧ answer.Refuses ∧ w.registered = false ∧
    outcomeOf (ticketAfter limit before) (stateAfter limit before id timeout later) = .ok answer
  /-- The wait ends once its deadline is reached or the response is there. -/
  ends : ¬(timerAfter limit before timeout later).IsRunning ∨
      (∃ body, InTime limit before id timeout later body) → ∀ turns, timeUpTurns ≤ turns →
    ∃ w', (resume turns (stateAfter limit before id timeout later)).waiter?
      (ticketAfter limit before) = some w' ∧ w'.HasEnded

/-- Who has ended and is not answered has expired, and is not registered. -/
theorem Fate.expired_of_hasEnded (hf : Fate id promised state timer w) (he : w.HasEnded)
    (hnot : ∀ body, ¬promised body) :
    w.state = .decided .expired 0 ∧ w.registered = false ∧ ∃ turns, timer = .due turns := by
  obtain ⟨how, he⟩ := he
  cases hf with
  | waiting hs => exact nomatch hs.symm.trans he
  | expired left hs ht _ _ hr =>
    obtain ⟨rfl, rfl⟩ := WaiterState.decided.inj (hs.symm.trans he)
    exact ⟨hs, hr rfl, _, ht⟩
  | answered _ _ hp => exact absurd hp (hnot _)

/-- Who does not wait any more has ended after enough turns. -/
theorem Fate.hasEnded_takeTurns (hf : Fate id promised state timer w)
    (hdecided : w.state ≠ .waiting) {turns : Nat} (ht : timeUpTurns ≤ turns) :
    (Requests.takeTurns turns w).HasEnded := by
  cases hf with
  | waiting hs => exact absurd hs hdecided
  | expired left hs _ hle =>
    refine ⟨.expired, ?_⟩
    rw [Requests.takeTurns, hs]
    exact congrArg (WaiterState.decided _) (Nat.sub_eq_zero_of_le (Nat.le_trans hle ht))
  | @answered body left hs hle =>
    refine ⟨.answered body, ?_⟩
    rw [Requests.takeTurns, hs]
    exact congrArg (WaiterState.decided _) (Nat.sub_eq_zero_of_le (Nat.le_trans hle ht))

/-- No wake-up is lost. Whoever starts to wait for the response to a request, whatever happens
before and afterwards and in whichever order: it ends with the first response when that is in time,
and else with a refusal. -/
theorem ofSteps_keepsWord (ht : IsTimeout timeout) (before : List RequestStep)
    (id : String) (later : List RequestStep) :
    ∃ w, KeepsWord limit before id timeout later w := by
  obtain ⟨w, hw⟩ := exists_watched ht before id later
  have houtcome : outcomeOf (ticketAfter limit before) (stateAfter limit before id timeout later)
      = outcome w := by rw [outcomeOf, hw.found]
  have hanswered : ∀ body, InTime limit before id timeout later body →
      outcome w = .ok (.fields [("body", .object body)]) := by
    intro body hbody
    obtain ⟨left, hs⟩ := hw.answered body hbody
    rw [outcome, hs]
  have hrefused : (∀ body, ¬InTime limit before id timeout later body) → w.HasEnded →
      ∃ answer, timedOut (.str id) timeout = .ok answer ∧ answer.Refuses ∧ w.registered = false ∧
        outcome w = .ok answer := by
    intro hnone hended
    obtain ⟨hs, hregistered, turns, htimer⟩ := hw.fate.expired_of_hasEnded hended hnone
    rcases ht.cases with rfl | ⟨-, seconds, -, hseconds⟩
    · cases htimer.symm.trans (Timer.play_running_none later)
    · obtain ⟨reason, htimedOut⟩ : ∃ reason,
          timedOut (.str id) timeout = .ok (.refusal reason) :=
        ⟨_, by rw [timedOut, hseconds]; rfl⟩
      refine ⟨.refusal reason, htimedOut, rfl, hregistered, ?_⟩
      rw [outcome, hs, hw.onRequest, hw.withTimeout]
      exact htimedOut
  refine ⟨w, hw.found, fun _ _ => firstResponse_unique, fun body hended hbody => ?_,
    fun body hbody _ => houtcome.trans (hanswered body hbody), fun hnone hended => ?_,
    fun hdue turns hturns => ?_⟩
  · rw [houtcome] at hbody
    by_cases hnone : ∀ other, ¬InTime limit before id timeout later other
    · obtain ⟨answer, -, hrefuses, -, hanswer⟩ := hrefused hnone hended
      obtain rfl := Except.ok.inj (hanswer.symm.trans hbody)
      exact absurd hrefuses (Answer.not_refuses_fields (by decide) _)
    · obtain ⟨other, hother⟩ := not_forall_not.mp hnone
      have hsame := Except.ok.inj ((hanswered other hother).symm.trans hbody)
      obtain rfl : other = body := by simpa [Answer.fields] using hsame
      exact hother.firstResponse
  · rw [houtcome]
    exact hrefused hnone hended
  · refine ⟨takeTurns turns w, waiter?_eq (bears_takeTurns turns) (List.append_nil _).symm hw.found,
      hw.fate.hasEnded_takeTurns (fun hs => ?_) hturns⟩
    rcases hdue with hdue | ⟨body, hbody⟩
    · cases hw.fate with
      | waiting _ htimer => exact hdue (htimer ▸ trivial)
      | expired _ hs' => cases hs.symm.trans hs'
      | answered hs' => cases hs.symm.trans hs'
    · obtain ⟨left, hs'⟩ := hw.answered body hbody
      cases hs.symm.trans hs'

/-- Two wait for the response to a request, and it comes too late for one of them. -/
theorem ofSteps_keepsWord_twice :
    let before : List RequestStep := [.request [], .wait (.str "req-1") (.int 1)]
    let later : List RequestStep := [.expire 2, .resume 3, .respond (.str "req-1") [], .resume 5]
    (stateAfter 1 before "req-1" (.int 4) later).waiters.map (fun w =>
      match w.state with
      | .decided (.answered _) 0 => true
      | _ => false) = [false, true] ∧
    (∃ w, KeepsWord 1 before "req-1" (.int 4) later w) ∧
    ∃ w, KeepsWord 1 [.request []] "req-1" (.int 1) (.wait (.str "req-1") (.int 4) :: later) w :=
  ⟨by decide +kernel, ofSteps_keepsWord (.inr ⟨_, rfl⟩) _ _ _,
    ofSteps_keepsWord (.inr ⟨_, rfl⟩) _ _ _⟩

/-! ### Waiting in one go -/

/-- Until a waiter has ended, all take turns and time passes. -/
theorem exists_reach_eq_play (w : Waiter) (state : Requests) :
    ∃ steps, reach w state = play steps state := by
  unfold reach
  split
  · next turns _ => exact ⟨[.resume turns], rfl⟩
  · next deadline _ _ => exact ⟨[.resume timeUpTurns, .expire deadline, .resume timeUpTurns], rfl⟩
  · exact ⟨[.resume timeUpTurns], rfl⟩

/-- To wait until the end is to start to wait, with such steps afterwards. -/
theorem exists_run_await (state : Requests) (request timeout : Value) : ∃ steps,
    (await request timeout).run state
      = (outcomeOf (state.tickets + 1) (play (.wait request timeout :: steps) state),
        play (.wait request timeout :: steps) state) := by
  obtain ⟨w, hrun, hticket, -⟩ := exists_started state request timeout
  obtain ⟨steps, hsteps⟩ :=
    exists_reach_eq_play w ((RequestStep.wait request timeout).after state)
  refine ⟨steps, ?_⟩
  rw [play, List.foldl_cons, ← play, ← hsteps, ← hticket, RequestStep.after, hrun, await,
    run_bind_ok hrun, run_bind_ok (run_modify _ _), run_bind_ok (run_get _)]
  rfl

end Requests

end HerdBook
