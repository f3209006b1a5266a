import HerdBook.Frame.Check
import HerdBook.Proofs.Outcomes

/-!
# Stages treat frames independently

The stages of a rule are run one after the other, each on all frames that are left. Still each frame
goes its own way: where the adapters answer by their arguments alone (`Adapters.AnswerBy`), a stage
makes of several frames what it makes of each of them, put together in their order
(`Stage.endsIn_apply`). Only the faults tell the difference. Of the first stage at which some frame
ends in a fault, the fault of the first such frame is reported, and it need not be that of the first
frame that ends in one: what is said of two groups of frames is said of success.

* `Effect.EndsIn`: a computation whose outcome is the same in all states.
* `Stage.alone`: what a stage makes of one frame.
* `Stage.applyEvery`: the stages without the stop at an empty collection.

## Main results

* `Stage.spread_append`: what becomes of two groups of frames in one stage.
* `Stage.pipe_append_eq_ok_iff`: and in all stages.
* `Stage.pipe_eq_ok_iff_spread`: so each frame passes through the stages on its own.
* `Stage.run_applyEvery`: no frames stay none, so that nothing is lost by stopping there.
* `Stage.applyAll_append`: two groups of frames together succeed exactly when each does, and then
  yield what they yield one after the other.
-/

namespace HerdBook

open Effect

namespace Effect

variable {σ α β : Type} {act : Effect σ α} {outcome : Except Fault α}

/-- In whatever state the computation is run, it has that outcome. What it does to the state is left
open. -/
def EndsIn (act : Effect σ α) (outcome : Except Fault α) : Prop := ∀ s, (act.run s).1 = outcome

namespace EndsIn

/-- What is known from the start. -/
theorem ofExcept (outcome : Except Fault α) :
    EndsIn (Effect.ofExcept outcome : Effect σ α) outcome := fun _ => rfl

/-- A result. -/
theorem pure (a : α) : EndsIn (Pure.pure a : Effect σ α) (.ok a) := fun _ => rfl

/-- A sequence. -/
theorem bind {next : α → Effect σ β} {f : α → Except Fault β} (h : EndsIn act outcome)
    (hn : ∀ a, EndsIn (next a) (f a)) : EndsIn (act >>= next) (outcome >>= f) := by
  intro s
  have hs := h s
  rcases hrun : act.run s with ⟨fault | a, t⟩
  · rw [hrun] at hs
    rw [run_bind_error hrun, ← hs]
    rfl
  · rw [hrun] at hs
    rw [run_bind_ok hrun, ← hs]
    exact hn a t

/-- An attempt succeeds with the outcome. -/
theorem attempt (h : EndsIn act outcome) : EndsIn (Effect.attempt act) (.ok outcome) :=
  fun s => congrArg Except.ok (h s)

variable {each : β → Effect σ α} {f : β → Except Fault α}

/-- Attempts at one computation per item. -/
theorem attemptAll (h : ∀ b, EndsIn (each b) (f b)) (items : List β) :
    EndsIn (Effect.attemptAll each items) (.ok (items.map f)) := by
  induction items with
  | nil => exact pure []
  | cons b bs ih => exact (h b).attempt.bind fun _ => ih.bind fun _ => pure _

/-- Waiting for one computation per item, when nothing disturbs the wait. -/
theorem gather {wait : Wait σ} (hbefore : EndsIn wait.before (.ok ()))
    (hafter : EndsIn wait.after (.ok ())) (h : ∀ b, EndsIn (each b) (f b)) (items : List β) :
    EndsIn (Effect.gather wait each items) (allOrFirstFault (items.map f)) := by
  cases items with
  | nil => exact pure []
  | cons b bs =>
    exact hbefore.bind fun _ => (attemptAll h (b :: bs)).bind fun _ => hafter.bind fun _ =>
      ofExcept _

end EndsIn

end Effect

/-- What calling an adapter comes to depends on its arguments alone, and nothing disturbs a query
while it waits. -/
structure Adapters.AnswerBy {σ κ : Type} (adapters : Adapters σ κ)
    (answers : κ → Value → Except Fault Value) : Prop where
  call : ∀ adapter args, EndsIn (adapters.call adapter args) (answers adapter args)
  before : EndsIn adapters.wait.before (.ok ())
  after : EndsIn adapters.wait.after (.ok ())

namespace Stage

variable {σ κ : Type} {adapters : Adapters σ κ} {answers : κ → Value → Except Fault Value}

/-! ### Which frames are left -/

/-- The frames that a test leaves are among those it was made on, and it holds of them. -/
theorem mem_of_keep {test : Frame → Except Fault Bool} {frames kept : List Frame}
    (h : keep test frames = .ok kept) : ∀ frame ∈ kept, frame ∈ frames ∧ test frame = .ok true := by
  induction frames generalizing kept with
  | nil =>
    obtain rfl : [] = kept := Except.ok.inj h
    simp
  | cons first rest ih =>
    rw [keep, bind_eq_ok_iff] at h
    obtain ⟨holds, hholds, h⟩ := h
    rw [bind_eq_ok_iff] at h
    obtain ⟨others, hothers, h⟩ := h
    obtain rfl := Except.ok.inj h
    have hrest : ∀ frame ∈ others, frame ∈ first :: rest ∧ test frame = .ok true :=
      fun frame hf => (ih hothers frame hf).imp_left (List.mem_cons_of_mem _)
    cases holds with
    | false => exact hrest
    | true => exact List.forall_mem_cons.mpr ⟨⟨List.mem_cons_self, hholds⟩, hrest⟩

/-- A change succeeds where it makes a frame that binds whatever was bound before. -/
theorem changeOne_eq_ok_iff {change : Frame → Except Fault Frame} {frame next : Frame} :
    changeOne change frame = .ok next ↔
      change frame = .ok next ∧ ∀ s ∈ frame.symbols, next.binds s = true := by
  have hmissing : ∀ changed : Frame,
      (frame.symbols.filter fun s => !changed.binds s).isEmpty = true ↔
        ∀ s ∈ frame.symbols, changed.binds s = true := fun changed => by simp
  rw [changeOne, bind_eq_ok_iff]
  constructor
  · rintro ⟨changed, hchanged, h⟩
    dsimp only at h
    split at h
    · next hempty =>
      obtain rfl := Except.ok.inj h
      exact ⟨hchanged, (hmissing _).mp hempty⟩
    · exact nomatch h
  · rintro ⟨hchanged, hall⟩
    exact ⟨next, hchanged, if_pos ((hmissing next).mpr hall)⟩

/-- The frames that a change leaves are what it makes of those before. -/
theorem exists_of_mem_changeAll {change : Frame → Except Fault Frame} {frames kept : List Frame}
    (h : changeAll change frames = .ok kept) :
    ∀ next ∈ kept, ∃ frame ∈ frames, changeOne change frame = .ok next := by
  induction frames generalizing kept with
  | nil =>
    obtain rfl : [] = kept := Except.ok.inj h
    simp
  | cons first rest ih =>
    rw [changeAll, bind_eq_ok_iff] at h
    obtain ⟨changed, hchanged, h⟩ := h
    rw [bind_eq_ok_iff] at h
    obtain ⟨others, hothers, h⟩ := h
    obtain rfl : changed :: others = kept := Except.ok.inj h
    refine List.forall_mem_cons.mpr ⟨⟨first, List.mem_cons_self, hchanged⟩, fun next hn => ?_⟩
    obtain ⟨frame, hf, hc⟩ := ih hothers next hn
    exact ⟨frame, List.mem_cons_of_mem _ hf, hc⟩

/-! ### One stage -/

/-- What becomes of each frame alone, put together in their order; the first fault if there is
one. -/
def spread (alone : Frame → Except Fault (List Frame)) : List Frame → Except Fault (List Frame)
  | [] => .ok []
  | frame :: rest => do
    let here ← alone frame
    let others ← spread alone rest
    return here ++ others

/-- What becomes of two groups of frames is what becomes of the one and then of the other. -/
theorem spread_append (alone : Frame → Except Fault (List Frame)) (frames more : List Frame) :
    spread alone (frames ++ more) = (do
      let kept ← spread alone frames
      let others ← spread alone more
      return kept ++ others) := by
  induction frames with
  | nil =>
    change _ = (spread alone more >>= pure)
    rw [bind_pure]
    rfl
  | cons frame rest ih =>
    rw [List.cons_append, spread, spread, ih]
    simp only [bind_assoc, pure_bind, List.append_assoc]

/-- Outcomes that are computed frame by frame are put together by joining the lists of frames. -/
theorem allOrFirstFault_map_flatten (alone : Frame → Except Fault (List Frame))
    (frames : List Frame) :
    (allOrFirstFault (frames.map alone)).map List.flatten = spread alone frames := by
  induction frames with
  | nil => rfl
  | cons frame rest ih =>
    rw [spread, ← ih, List.map_cons]
    cases alone frame with
    | error fault => rfl
    | ok here =>
      rw [allOrFirstFault]
      cases allOrFirstFault (rest.map alone) <;> rfl

variable (adapters answers) in
/-- The rows that an adapter has for its arguments. -/
def rowsFor (adapter : κ) (args : Value) : Except Fault (List Fields) :=
  match answers adapter args with
  | .ok answer => rowsOf (adapters.name adapter) answer
  | .error fault => .error (fault.wrappedBy .adapter (adapters.name adapter))

variable (adapters answers) in
/-- What a stage makes of one frame, where the adapters answer by their arguments. -/
def alone (frame : Frame) : Stage κ → Except Fault (List Frame)
  | .filter test =>
    ((test frame).map fun holds => if holds then [frame] else []).mapError Fault.onLeaving
  | .map change => ((changeOne change frame).map fun changed => [changed]).mapError Fault.onLeaving
  | .query adapter inputs outputs => do
    let args ← inputs.fill frame
    let rows ← rowsFor adapters answers adapter args
    (matchRows frame outputs rows).mapError Fault.misuse

/-- A filter keeps each frame or not. -/
theorem keep_eq_spread (test : Frame → Except Fault Bool) (frames : List Frame) :
    (keep test frames).mapError Fault.onLeaving
      = spread (fun frame => (filter test : Stage κ).alone adapters answers frame) frames := by
  induction frames with
  | nil => rfl
  | cons frame rest ih =>
    rw [spread, ← ih, keep, alone]
    cases test frame with
    | error fault => rfl
    | ok holds => cases keep test rest <;> cases holds <;> rfl

/-- A map changes each frame. -/
theorem changeAll_eq_spread (change : Frame → Except Fault Frame) (frames : List Frame) :
    (changeAll change frames).mapError Fault.onLeaving
      = spread (fun frame => (map change : Stage κ).alone adapters answers frame) frames := by
  induction frames with
  | nil => rfl
  | cons frame rest ih =>
    rw [spread, ← ih, changeAll, alone]
    cases changeOne change frame with
    | error fault => rfl
    | ok changed => cases changeAll change rest <;> rfl

/-- A call of an adapter yields the rows that it has for the arguments. -/
theorem endsIn_callAdapter (h : adapters.AnswerBy answers) (adapter : κ) (args : Value) :
    EndsIn (callAdapter adapters adapter args) (rowsFor adapters answers adapter args) := by
  intro s
  have hcall := h.call adapter args s
  rw [callAdapter, run_bind_ok (run_attempt ..), hcall, rowsFor]
  cases answers adapter args <;> rfl

/-- A query joins a frame with the rows that the adapter has for it. -/
theorem endsIn_joinRows (h : adapters.AnswerBy answers) (adapter : κ) (inputs outputs : Value)
    (frame : Frame) :
    EndsIn (joinRows adapters adapter inputs outputs frame)
      ((query adapter inputs outputs).alone adapters answers frame) :=
  (EndsIn.ofExcept _).bind fun args => (endsIn_callAdapter h adapter args).bind fun _ =>
    EndsIn.ofExcept _

/-- A stage makes of several frames what it makes of each of them. -/
theorem endsIn_apply (h : adapters.AnswerBy answers) (stage : Stage κ) (frames : List Frame) :
    EndsIn (stage.apply adapters frames)
      (spread (fun frame => stage.alone adapters answers frame) frames) := by
  cases stage with
  | filter test =>
    rw [← keep_eq_spread]
    exact EndsIn.ofExcept _
  | map change =>
    rw [← changeAll_eq_spread]
    exact EndsIn.ofExcept _
  | query adapter inputs outputs =>
    rw [← allOrFirstFault_map_flatten]
    have hjoined := EndsIn.gather h.before h.after (endsIn_joinRows h adapter inputs outputs) frames
    exact (hjoined.bind fun joined => EndsIn.pure joined.flatten)

/-! ### All stages -/

variable (adapters answers) in
/-- What a list of stages makes of the frames, each stage frame by frame. -/
def pipe : List (Stage κ) → List Frame → Except Fault (List Frame)
  | [], frames => .ok frames
  | stage :: rest, frames => do
    pipe rest (← spread (fun frame => stage.alone adapters answers frame) frames)

/-- Without frames there are none after any stages. -/
theorem pipe_nil (stages : List (Stage κ)) : pipe adapters answers stages [] = .ok [] := by
  induction stages with
  | nil => rfl
  | cons stage rest ih => exact ih

/-- Two groups of frames together pass through the stages exactly when each of them does, and what
is left of them then is what is left of the one followed by what is left of the other. The groups
are followed from stage to stage, since what a stage leaves are two groups again. -/
theorem pipe_append_eq_ok_iff (stages : List (Stage κ)) (frames more result : List Frame) :
    pipe adapters answers stages (frames ++ more) = .ok result ↔
      ∃ kept others, pipe adapters answers stages frames = .ok kept ∧
        pipe adapters answers stages more = .ok others ∧ result = kept ++ others := by
  induction stages generalizing frames more with
  | nil =>
    constructor
    · intro h
      exact ⟨frames, more, rfl, rfl, (Except.ok.inj h).symm⟩
    · rintro ⟨kept, others, hkept, hothers, rfl⟩
      rw [← Except.ok.inj hkept, ← Except.ok.inj hothers]
      rfl
  | cons stage rest ih =>
    simp only [pipe, spread_append, bind_assoc, pure_bind, bind_eq_ok_iff]
    constructor
    · rintro ⟨next, hnext, next', hnext', h⟩
      obtain ⟨kept, others, hkept, hothers, rfl⟩ := (ih next next').mp h
      exact ⟨kept, others, ⟨next, hnext, hkept⟩, ⟨next', hnext', hothers⟩, rfl⟩
    · rintro ⟨kept, others, ⟨next, hnext, hkept⟩, ⟨next', hnext', hothers⟩, rfl⟩
      exact ⟨next, hnext, next', hnext', (ih next next').mpr ⟨kept, others, hkept, hothers, rfl⟩⟩

/-- Frames pass through the stages exactly when each of them does on its own. -/
theorem pipe_eq_ok_iff_spread (stages : List (Stage κ)) (frames result : List Frame) :
    pipe adapters answers stages frames = .ok result ↔
      spread (fun frame => pipe adapters answers stages [frame]) frames = .ok result := by
  induction frames generalizing result with
  | nil => rw [pipe_nil, spread]
  | cons frame rest ih =>
    rw [← List.singleton_append, pipe_append_eq_ok_iff, List.singleton_append, spread,
      bind_eq_ok_iff]
    refine exists_congr fun here => ?_
    simp only [bind_eq_ok_iff, ih, exists_and_left]
    refine and_congr_right fun _ => exists_congr fun others => and_congr_right fun _ => ?_
    exact ⟨fun h => congrArg Except.ok h.symm, fun h => (Except.ok.inj h).symm⟩

/-- The stages come to what they make of the frames one by one. -/
theorem endsIn_applyAll (h : adapters.AnswerBy answers) (stages : List (Stage κ))
    (frames : List Frame) :
    EndsIn (applyAll adapters stages frames) (pipe adapters answers stages frames) := by
  induction stages generalizing frames with
  | nil => exact EndsIn.pure frames
  | cons stage rest ih =>
    cases frames with
    | nil =>
      rw [pipe_nil]
      exact EndsIn.pure []
    | cons frame others => exact (endsIn_apply h stage (frame :: others)).bind ih

/-- What a list of stages makes of the frames when each stage is run, also without frames. -/
def applyEvery (adapters : Adapters σ κ) : List (Stage κ) → List Frame → Effect σ (List Frame)
  | [], frames => pure frames
  | stage :: rest, frames => do applyEvery adapters rest (← stage.apply adapters frames)

/-- A stage makes nothing of no frames, and does nothing. -/
theorem run_apply_nil (stage : Stage κ) (s : σ) :
    (stage.apply adapters []).run s = (.ok [], s) := by
  cases stage <;> rfl

/-- Running every stage on no frames does nothing. -/
theorem run_applyEvery_nil (stages : List (Stage κ)) (s : σ) :
    (applyEvery adapters stages []).run s = (.ok [], s) := by
  induction stages with
  | nil => rfl
  | cons stage rest ih =>
    rw [applyEvery, run_bind_ok (run_apply_nil stage s)]
    exact ih

/-- Running every stage is the same as stopping where no frames are left, whatever the adapters
do. -/
theorem run_applyEvery (adapters : Adapters σ κ) (stages : List (Stage κ)) (frames : List Frame)
    (s : σ) :
    (applyEvery adapters stages frames).run s = (applyAll adapters stages frames).run s := by
  induction stages generalizing frames s with
  | nil => rfl
  | cons stage rest ih =>
    cases frames with
    | nil => exact run_applyEvery_nil (stage :: rest) s
    | cons frame others =>
      have hcons : applyAll adapters (stage :: rest) (frame :: others)
          = stage.apply adapters (frame :: others) >>= applyAll adapters rest := rfl
      rw [hcons, applyEvery, run_bind, run_bind]
      rcases (stage.apply adapters (frame :: others)).run s with ⟨fault | next, t⟩
      · rfl
      · exact ih next t

/-- The stages treat frames independently. Where the adapters answer by their arguments alone, two
groups of frames together pass through the stages exactly when each group does, in whatever states,
and yield what the first group yields followed by what the second one yields. And stopping when no
frames are left is the same as running the stages that remain. -/
theorem applyAll_append (h : adapters.AnswerBy answers) (stages : List (Stage κ))
    (frames more : List Frame) (s t u : σ) :
    (∀ result, ((applyAll adapters stages (frames ++ more)).run s).1 = .ok result ↔
        ∃ kept others, ((applyAll adapters stages frames).run t).1 = .ok kept ∧
          ((applyAll adapters stages more).run u).1 = .ok others ∧ result = kept ++ others) ∧
      (applyEvery adapters stages frames).run s = (applyAll adapters stages frames).run s := by
  refine ⟨fun result => ?_, run_applyEvery adapters stages frames s⟩
  rw [endsIn_applyAll h stages (frames ++ more) s, endsIn_applyAll h stages frames t,
    endsIn_applyAll h stages more u]
  exact pipe_append_eq_ok_iff stages frames more result

/-- The rows for a herd: there are two for the ewes. -/
def ewesOf (args : Value) : Value :=
  .list (if args.same (.object [("herd", .str "ewes")]) then
    [.object [("animal", .str "dolly")], .object [("animal", .str "molly")]] else [])

/-- An adapter that has the rows for a herd and counts how often it is asked. -/
def counting : Adapters Nat Unit where
  name _ := "animals"
  call _ args := do
    modify (· + 1)
    return ewesOf args
  wait := ⟨pure (), pure ()⟩

/-- The herd of a frame must be known; the frame is joined with the animals of the herd and then
marked. -/
def listing : List (Stage Unit) :=
  [.filter fun frame => (Check.bound [.plain "list" "herd"]).holds frame,
    .query () (.object [("herd", .symbol (.plain "list" "herd"))])
      (.object [("animal", .symbol (.plain "list" "animal"))]),
    .map fun frame => .ok (frame.bind (.plain "list" "listed") (.bool true))]

/-- A frame for a herd of that name. -/
def ofHerd (name : String) : Frame := Frame.ofPairs [(.plain "list" "herd", .str name)]

/-- Two frames of which one asks for the ewes and the other has no herd. -/
def someEwes : List Frame := [ofHerd "ewes", .empty]

/-- Two frames of which one asks for the rams and the other for the ewes. -/
def ramsAndEwes : List Frame := [ofHerd "rams", ofHerd "ewes"]

/-- The two ewes are listed for each frame that asks for them, and nothing is for the rams or for a
frame without a herd, however often the adapter was asked before. -/
theorem applyAll_append_listing : ∃ kept, kept.length = 2 ∧
    ((applyAll counting listing someEwes).run 7).1 = .ok kept ∧
    ((applyAll counting listing (someEwes ++ ramsAndEwes)).run 0).1 = .ok (kept ++ kept) := by
  have h : counting.AnswerBy fun _ args => .ok (ewesOf args) :=
    ⟨fun _ _ _ => rfl, fun _ => rfl, fun _ => rfl⟩
  have happend := (applyAll_append h listing someEwes ramsAndEwes 0 7 7).1
  exact ⟨_, rfl, rfl, (happend _).mpr ⟨_, _, rfl, rfl, rfl⟩⟩

end Stage

end HerdBook
