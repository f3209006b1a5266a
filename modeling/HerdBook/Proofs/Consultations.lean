import HerdBook.Proofs.Assignments
import HerdBook.Proofs.Pipelines
import HerdBook.Proofs.Turns

/-!
# Queries consult their adapter frame by frame

A query asks its adapter once for each frame that its template can be filled in for, in the order of
the frames, and for no other one. What came of a frame before does not keep a later one from being
asked for, and what an adapter remembers of one call it knows in the next. Only when all have had
their turn, the query tells the first fault, or joins what the frames continue in.

* `Stage.callsFor`: the arguments of the calls.
* `Stage.ContinuesIn`: what becomes of a frame when its call is answered.
* `Stage.Settles`: what becomes of all frames when the calls are answered one by one.

## Main results

* `Stage.exists_settles`: the turns of the frames are the calls, and each frame is settled by its
  own fault or by the next answer.
* `Stage.query_reports`: what the query tells of them.
-/

namespace HerdBook

open Effect

/-- The second frame binds what the first one binds, to the same values. -/
def Frame.Extends (frame extended : Frame) : Prop :=
  ∀ s v, frame.get? s = some v → extended.get? s = some v

/-- A frame that is extended to match data keeps what it binds. -/
theorem Frame.extends_of_unify? {frame extended : Frame} {presence : Presence}
    {pattern data : Fields} (h : frame.unify? presence pattern data = some extended) :
    frame.Extends extended := by
  have hdecides := frame.unify?_decides presence pattern data
  rw [h] at hdecides
  intro s v hs
  rw [hdecides.2, hs, Option.some_or]

namespace Stage

variable {σ κ : Type}

/-! ### Rows -/

/-- The complaint about an answer that is no list of rows. -/
def noRows (name : String) (answer : Value) : Fault :=
  let kind := answer.kindName
  .failed .adapter s!"adapter {name} returned {kind}, expected a list of rows" none

/-- The complaint about an item that is no row. -/
def noRow (name : String) (item : Value) : Fault :=
  let kind := item.kindName
  .failed .adapter s!"adapter {name} returned a {kind} row" none

/-- Items are rows, or the first one that is none is complained about. -/
theorem rowsOfItems_cases (name : String) (items : List Value) :
    (∃ rows : List Fields, items = rows.map .object ∧ rowsOfItems name items = .ok rows) ∨
      ∃ (rows : List Fields) (item : Value) (rest : List Value),
        items = rows.map .object ++ item :: rest ∧ item.fields? = none ∧
          rowsOfItems name items = .error (noRow name item) := by
  induction items with
  | nil => exact .inl ⟨[], rfl, rfl⟩
  | cons item items ih =>
    cases item with
    | object fields =>
      rcases ih with ⟨rows, rfl, hrows⟩ | ⟨rows, item, rest, rfl, hitem, hrows⟩
      · exact .inl ⟨fields :: rows, rfl, by rw [rowsOfItems, hrows]; rfl⟩
      · exact .inr ⟨fields :: rows, item, rest, rfl, hitem, by rw [rowsOfItems, hrows]; rfl⟩
    | _ => exact .inr ⟨[], _, items, rfl, rfl, rfl⟩

/-- A frame continues in the rows that it can be extended to match. -/
theorem matchRows_object (frame : Frame) (pattern : Fields) (rows : List Fields) :
    matchRows frame (.object pattern) rows
      = .ok (rows.filterMap (frame.unify? .optional pattern)) := by
  induction rows with
  | nil => rfl
  | cons row rest ih =>
    rw [matchRows, ih, List.filterMap_cons]
    change Except.ok ((frame.unify? .optional pattern row).toList ++ _) = _
    cases frame.unify? .optional pattern row <;> rfl

/-! ### One frame -/

/-- What becomes of a frame when the call for it is answered. It continues in the rows it can be
extended to match. Answers that are no rows are complained about, a fault of the engine and an order
to stop pass, and any other fault is wrapped as one of the adapter. -/
inductive ContinuesIn (name : String) (pattern : Fields) (frame : Frame) :
    Except Fault Value → Except Fault (List Frame) → Prop where
  | rows {answer : Value} {rows : List Fields} (h : answer.items? = some (rows.map .object)) :
    ContinuesIn name pattern frame (.ok answer)
      (.ok (rows.filterMap (frame.unify? .optional pattern)))
  | noRows {answer : Value} (h : answer.items? = none) :
    ContinuesIn name pattern frame (.ok answer) (.error (noRows name answer))
  | noRow {answer item : Value} {rows : List Fields} {rest : List Value}
    (h : answer.items? = some (rows.map .object ++ item :: rest)) (hi : item.fields? = none) :
    ContinuesIn name pattern frame (.ok answer) (.error (noRow name item))
  | passed {fault : Fault} (h : (fault.isEngine || fault.isStop) = true) :
    ContinuesIn name pattern frame (.error fault) (.error fault)
  | wrapped {fault : Fault} (h : (fault.isEngine || fault.isStop) = false) :
    ContinuesIn name pattern frame (.error fault) (.error (.wrapped .adapter name fault none))

/-- What a frame continues in extends it. -/
theorem ContinuesIn.extends {name : String} {pattern : Fields} {frame : Frame}
    {answer : Except Fault Value} {outcome : Except Fault (List Frame)}
    (h : ContinuesIn name pattern frame answer outcome) :
    ∀ part, outcome = .ok part → ∀ extended ∈ part, frame.Extends extended := by
  cases h with
  | rows _ =>
    rintro _ hpart extended hmem
    obtain rfl := Except.ok.inj hpart
    obtain ⟨row, -, hrow⟩ := List.mem_filterMap.mp hmem
    exact Frame.extends_of_unify? hrow
  | _ => exact nofun

variable (adapters : Adapters σ κ) (adapter : κ) {inputs : Value} {pattern : Fields} {frame : Frame}

/-- For a frame that the template cannot be filled in for, nothing is asked. -/
theorem run_joinRows_of_error {fault : Fault} (h : inputs.fill frame = .error fault) (s : σ) :
    (joinRows adapters adapter inputs (.object pattern) frame).run s = (.error fault, s) := by
  rw [joinRows, h]
  exact run_bind_error (run_ofExcept ..)

variable (pattern) in
/-- For any other frame the adapter is called, and the frame continues in what it answers. -/
theorem exists_continuesIn {args : Value} (h : inputs.fill frame = .ok args) (s : σ) :
    ∃ outcome, ContinuesIn (adapters.name adapter) pattern frame
        ((adapters.call adapter args).run s).1 outcome ∧
      (joinRows adapters adapter inputs (.object pattern) frame).run s
        = (outcome, ((adapters.call adapter args).run s).2) := by
  rw [joinRows, h, run_bind_ok (run_ofExcept ..)]
  rcases hcall : (adapters.call adapter args).run s with ⟨fault | answer, t⟩
  · have hrows : (callAdapter adapters adapter args).run s
        = (.error (fault.wrappedBy .adapter (adapters.name adapter)), t) := by
      rw [callAdapter, run_bind_ok (run_attempt ..), hcall]
      rfl
    refine ⟨_, ?_, run_bind_error hrows⟩
    rw [Fault.wrappedBy]
    split
    · next hpass => exact .passed hpass
    · next hpass => exact .wrapped (Bool.not_eq_true _ ▸ hpass)
  · have hrows : (callAdapter adapters adapter args).run s
        = (rowsOf (adapters.name adapter) answer, t) := by
      rw [callAdapter, run_bind_ok (run_attempt ..), hcall]
      rfl
    cases hitems : answer.items? with
    | none =>
      rw [rowsOf, hitems] at hrows
      exact ⟨_, .noRows hitems, run_bind_error hrows⟩
    | some items =>
      rw [rowsOf, hitems] at hrows
      rcases rowsOfItems_cases (adapters.name adapter) items with
        ⟨rows, rfl, hok⟩ | ⟨rows, item, rest, rfl, hitem, herror⟩
      · refine ⟨_, .rows hitems, ?_⟩
        rw [run_bind_ok (hrows.trans (congrArg (·, t) hok)), matchRows_object]
        rfl
      · exact ⟨_, .noRow hitems hitem, run_bind_error (hrows.trans (congrArg (·, t) herror))⟩

/-! ### All frames -/

/-- The arguments that the frames give a template, without the frames it cannot be filled in for. -/
def callsFor (inputs : Value) (frames : List Frame) : List Value :=
  frames.filterMap fun frame => (inputs.fill frame).toOption

/-- What becomes of the frames when the calls for them are answered: a frame that the template
cannot be filled in for ends in that fault, and for any other the next answer counts. -/
inductive Settles (name : String) (inputs : Value) (pattern : Fields) :
    List Frame → List (Except Fault Value) → List (Except Fault (List Frame)) → Prop where
  | done : Settles name inputs pattern [] [] []
  | unfilled {frame : Frame} {frames : List Frame} {answers : List (Except Fault Value)}
    {outcomes : List (Except Fault (List Frame))} {fault : Fault}
    (h : inputs.fill frame = .error fault)
    (rest : Settles name inputs pattern frames answers outcomes) :
    Settles name inputs pattern (frame :: frames) answers (.error fault :: outcomes)
  | answered {frame : Frame} {frames : List Frame} {answer : Except Fault Value}
    {answers : List (Except Fault Value)} {outcome : Except Fault (List Frame)}
    {outcomes : List (Except Fault (List Frame))} {args : Value}
    (h : inputs.fill frame = .ok args) (hc : ContinuesIn name pattern frame answer outcome)
    (rest : Settles name inputs pattern frames answers outcomes) :
    Settles name inputs pattern (frame :: frames) (answer :: answers) (outcome :: outcomes)

/-- Each frame is settled, and what it continues in extends it. -/
theorem Settles.extends {name : String} {frames : List Frame} {answers : List (Except Fault Value)}
    {outcomes : List (Except Fault (List Frame))}
    (h : Settles name inputs pattern frames answers outcomes) :
    List.Forall₂ (fun frame outcome =>
      ∀ part, outcome = .ok part → ∀ extended ∈ part, Frame.Extends frame extended)
      frames outcomes := by
  induction h with
  | done => exact .nil
  | unfilled _ _ ih => exact .cons nofun ih
  | answered _ hc _ ih => exact .cons hc.extends ih

/-- The turns of the frames are the calls for those that can be asked for, and settle all of
them. -/
theorem exists_settles (inputs : Value) (pattern : Fields) (frames : List Frame) (s : σ) :
    ∃ answers outcomes t,
      (attemptAll (adapters.call adapter) (callsFor inputs frames)).run s = (.ok answers, t) ∧
      (attemptAll (joinRows adapters adapter inputs (.object pattern)) frames).run s
        = (.ok outcomes, t) ∧
      Settles (adapters.name adapter) inputs pattern frames answers outcomes := by
  induction frames generalizing s with
  | nil => exact ⟨[], [], s, rfl, rfl, .done⟩
  | cons frame rest ih =>
    cases hfill : inputs.fill frame with
    | error fault =>
      obtain ⟨answers, outcomes, t, hcalls, hjoins, hsettles⟩ := ih s
      refine ⟨answers, .error fault :: outcomes, t, ?_, ?_, .unfilled hfill hsettles⟩
      · rw [callsFor, List.filterMap_cons, hfill]
        exact hcalls
      · rw [attemptAll, run_bind_ok (run_attempt ..), run_joinRows_of_error _ _ hfill,
          run_bind_ok hjoins]
        rfl
    | ok args =>
      obtain ⟨outcome, hcontinues, hjoin⟩ :=
        exists_continuesIn adapters adapter pattern hfill s
      obtain ⟨answers, outcomes, t, hcalls, hjoins, hsettles⟩ :=
        ih ((adapters.call adapter args).run s).2
      refine ⟨((adapters.call adapter args).run s).1 :: answers, outcome :: outcomes, t, ?_, ?_,
        .answered hfill hcontinues hsettles⟩
      · rw [callsFor, List.filterMap_cons, hfill]
        change (attemptAll _ (args :: callsFor inputs rest)).run s = _
        rw [attemptAll, run_bind_ok (run_attempt ..), run_bind_ok hcalls]
        rfl
      · rw [attemptAll, run_bind_ok (run_attempt ..), hjoin, run_bind_ok hjoins]
        rfl

/-- An adapter that counts how often it is called. The second call fails, the third one is answered
without rows, and any other one with two animals. -/
def faltering : Adapters Nat Unit where
  name _ := "animals"
  call _ _ := do
    modify (· + 1)
    match ← get with
    | 2 => throw (.raised "OSError" "no connection")
    | 3 => return .null
    | _ => return .list [.object [("animal", .str "dolly")], .object [("animal", .str "molly")]]
  wait := ⟨pure (), pure ()⟩

/-- The query for the animals of a herd. -/
def animalsOfHerd : Value × Fields :=
  (.object [("herd", .symbol (.plain "list" "herd"))],
    [("animal", .symbol (.plain "list" "animal"))])

/-- Frames for five herds, of which the first one is asked for dolly and the third one has no
name. -/
def fiveHerds : List Frame :=
  [(ofHerd "ewes").bind (.plain "list" "animal") (.str "dolly"), ofHerd "rams", .empty,
    ofHerd "lambs", ofHerd "hoggets"]

end Stage

end HerdBook
