import HerdBook.Proofs.Consultations
import HerdBook.Proofs.Templates

/-!
# Where frames come from

Each frame that the stages of a rule leave descends from one of those that they were given, in a line
with one step for each stage (`Stage.Step`): a test lets a frame through as it is, a change replaces
it by one that binds at least the same symbols, and a query extends it by a row. So no symbol is
unbound on the way, and its value can only be another one where a change overwrote it.

A symbol that a pattern names in its output is bound by the match, since outputs are required. The
symbols of inputs and of queries may go without, so these are the ones that an action can lack.

## Main results

* `Frame.binds_of_unifyValue?`: what is required is bound.
* `Pattern.ContinuesBy.binds`: so is what a pattern names in its output, once all have matched.
* `Stage.exists_line`: every frame that is left descends from one that was given.
* `Rule.stages_keep`: what is still bound when the actions are filled in, and what they can lack.
-/

namespace HerdBook

open Effect

variable {σ κ : Type}

namespace Frame

variable {frame extended next : Frame} {pattern data : Value}

/-- A frame extends itself. -/
theorem Extends.refl (frame : Frame) : frame.Extends frame := fun _ _ h => h

/-- What extends an extension extends the frame. -/
theorem Extends.trans (h : frame.Extends extended) (h' : extended.Extends next) :
    frame.Extends next := fun s v hs => h' s v (h s v hs)

/-- What a frame binds, its extension binds. -/
theorem Extends.binds (h : frame.Extends extended) {s : Symbol} (hs : frame.binds s = true) :
    extended.binds s = true := by
  obtain ⟨v, hv⟩ := Option.isSome_iff_exists.mp hs
  rw [Frame.binds, h s v hv]
  rfl

/-- A frame that is extended to match data of any kind keeps what it binds. -/
theorem extends_of_unifyValue? {presence : Presence}
    (h : frame.unifyValue? presence pattern data = .ok (some extended)) :
    frame.Extends extended := by
  cases pattern with
  | object fields =>
    cases data with
    | object found => exact extends_of_unify? (Except.ok.inj h)
    | _ =>
      obtain ⟨satisfied, -, h⟩ := bind_eq_ok_iff.mp h
      cases satisfied with
      | true =>
        obtain rfl : frame = extended := Option.some.inj (Except.ok.inj h)
        exact .refl frame
      | false => exact nomatch Except.ok.inj h
  | _ => cases data <;> exact nomatch h

/-- Data that are no object cannot do with a symbol that is required. -/
theorem not_isSatisfiedWithout {fields : Fields} {field : String} {s : Symbol}
    (hs : (field, Value.symbol s) ∈ fields) :
    isSatisfiedWithout .required data fields ≠ .ok true := by
  induction fields with
  | nil => cases hs
  | cons entry rest ih =>
    intro h
    obtain ⟨found, -, h⟩ := bind_eq_ok_iff.mp h
    cases found with
    | true => exact nomatch h
    | false =>
      rcases List.mem_cons.mp hs with rfl | hs
      · exact nomatch Except.ok.inj h
      · cases hallowed : Presence.required.allowsAbsent entry.2 with
        | true =>
          simp only [hallowed] at h
          exact ih hs h
        | false =>
          simp only [hallowed] at h
          exact nomatch Except.ok.inj h

/-- A symbol that is required is bound when the data match. -/
theorem binds_of_unifyValue? {field : String} {s : Symbol}
    (h : frame.unifyValue? .required pattern data = .ok (some extended))
    (hs : (field, Value.symbol s) ∈ pattern.entries) : extended.binds s = true := by
  cases pattern with
  | object fields =>
    cases data with
    | object found =>
      have hdecides := frame.unify?_decides .required fields found
      rw [Except.ok.inj h] at hdecides
      obtain ⟨⟨hadmits, -⟩, hknown⟩ := hdecides
      obtain ⟨got, hgot⟩ := Option.isSome_iff_exists.mp
        ((hadmits _ hs).2 (by simp [Value.symbol?]) rfl)
      have hseen : (s, got) ∈ Value.sightings fields found :=
        List.mem_filterMap.mpr ⟨_, hs, by simp [Value.symbol?, hgot]⟩
      rw [Frame.binds, hknown, Option.isSome_or, Bool.or_eq_true]
      exact .inr ((Table.has_iff_mem_keys _ _).mpr (List.mem_map_of_mem hseen))
    | _ =>
      obtain ⟨satisfied, hsatisfied, h⟩ := bind_eq_ok_iff.mp h
      cases satisfied with
      | true => exact absurd hsatisfied (not_isSatisfiedWithout hs)
      | false => cases Except.ok.inj h
  | _ => cases hs

end Frame

/-! ### Through the patterns -/

namespace Pattern

variable {pattern : Pattern} {patterns : List Pattern} {log : List Event} {b c : Combination}
  {s : Symbol}

/-- The pattern names the symbol in its output. -/
def Gives (pattern : Pattern) (s : Symbol) : Prop :=
  ∃ field, (field, Value.symbol s) ∈ pattern.outputs.entries

/-- A match keeps what is bound and binds what the pattern names in its output. -/
theorem Continues.binds (h : pattern.Continues log b c) :
    b.1.Extends c.1 ∧ ∀ s, pattern.Gives s → c.1.binds s = true := by
  obtain ⟨event, -, -, frame, hmatch, rfl⟩ := h
  unfold match? at hmatch
  split at hmatch
  · obtain ⟨found, hinputs, hmatch⟩ := bind_eq_ok_iff.mp hmatch
    cases found with
    | none => exact nomatch Except.ok.inj hmatch
    | some extended =>
      refine ⟨(Frame.extends_of_unifyValue? hinputs).trans (Frame.extends_of_unifyValue? hmatch),
        ?_⟩
      rintro s ⟨field, hs⟩
      exact Frame.binds_of_unifyValue? hmatch hs
  · exact nomatch Except.ok.inj hmatch

/-- So it is with all patterns. -/
theorem ContinuesBy.extends (h : ContinuesBy log patterns b c) : b.1.Extends c.1 := by
  induction h with
  | done => exact .refl _
  | step hcont _ ih => exact hcont.binds.1.trans ih

/-- What one of them names in its output is bound when all have matched. -/
theorem ContinuesBy.binds (h : ContinuesBy log patterns b c) (hp : pattern ∈ patterns)
    (hs : pattern.Gives s) : c.1.binds s = true := by
  obtain ⟨rest, b', c', hcont, hrest⟩ := h.exists_of_mem hp
  exact hrest.extends.binds (hcont.binds.2 s hs)

end Pattern

/-! ### Through the stages -/

namespace Stage

/-- A step of a line: a stage, and the frames before and after it. -/
structure Step (κ : Type) where
  stage : Stage κ
  before : Frame
  after : Frame

/-- The stage makes the second frame of the first one. A query does so by a row of what its adapter
answers for the frame, in some state. -/
inductive Step.Made (adapters : Adapters σ κ) : Step κ → Prop
  | kept {test : Frame → Except Fault Bool} {frame : Frame} (h : test frame = .ok true) :
      Made adapters ⟨.filter test, frame, frame⟩
  | changed {change : Frame → Except Fault Frame} {frame next : Frame}
      (h : change frame = .ok next) (hall : ∀ s ∈ frame.symbols, next.binds s = true) :
      Made adapters ⟨.map change, frame, next⟩
  | joined {adapter : κ} {inputs outputs args answer : Value} {frame extended : Frame} {s : σ}
      {rows : List Fields} {row : Fields} (hargs : inputs.fill frame = .ok args)
      (hcall : ((adapters.call adapter args).run s).1 = .ok answer)
      (hrows : rowsOf (adapters.name adapter) answer = .ok rows) (hrow : row ∈ rows)
      (h : frame.unifyValue? .optional outputs (.object row) = .ok (some extended)) :
      Made adapters ⟨.query adapter inputs outputs, frame, extended⟩

/-- The step is a change, and the symbol has not the same value afterwards. -/
def Step.Overwrites (step : Step κ) (s : Symbol) : Prop :=
  (∃ change, step.stage = .map change) ∧ step.after.get? s ≠ step.before.get? s

/-- The second frame is the last one of a line that begins with the first one. -/
inductive Descends : Frame → List (Step κ) → Frame → Prop
  | refl (frame : Frame) : Descends frame [] frame
  | step (step : Step κ) {line : List (Step κ)} {last : Frame}
      (h : Descends step.after line last) : Descends step.before (step :: line) last

variable {adapters : Adapters σ κ} {frames kept : List Frame} {first last : Frame}

/-- A step unbinds nothing, and what it does not overwrite keeps its value. -/
theorem Step.Made.keeps {step : Step κ} (h : step.Made adapters) {s : Symbol} {v : Value}
    (hs : step.before.get? s = some v) :
    step.after.binds s = true ∧ (¬step.Overwrites s → step.after.get? s = some v) := by
  have hbinds : step.before.binds s = true := Option.isSome_iff_exists.mpr ⟨v, hs⟩
  cases h with
  | kept h => exact ⟨hbinds, fun _ => hs⟩
  | changed h hall =>
    refine ⟨hall s ((Table.has_iff_mem_keys _ _).mp hbinds), fun hnot => ?_⟩
    by_contra hne
    exact hnot ⟨⟨_, rfl⟩, fun heq => hne (heq.trans hs)⟩
  | joined _ _ _ _ h =>
    have hextends := Frame.extends_of_unifyValue? h
    exact ⟨hextends.binds hbinds, fun _ => hextends s v hs⟩

/-- So does a line. -/
theorem Descends.keeps {line : List (Step κ)} (h : Descends first line last)
    (hmade : ∀ step ∈ line, step.Made adapters) {s : Symbol} {v : Value}
    (hs : first.get? s = some v) :
    last.binds s = true ∧ ((∀ step ∈ line, ¬step.Overwrites s) → last.get? s = some v) := by
  induction h generalizing v with
  | refl => exact ⟨Option.isSome_iff_exists.mpr ⟨v, hs⟩, fun _ => hs⟩
  | step step _ ih =>
    rw [List.forall_mem_cons] at hmade ⊢
    obtain ⟨hbinds, hsame⟩ := hmade.1.keeps hs
    obtain ⟨w, hw⟩ := Option.isSome_iff_exists.mp hbinds
    refine ⟨(ih hmade.2 hw).1, fun hnot => ?_⟩
    exact (ih hmade.2 (hsame hnot.1)).2 hnot.2

/-- The frames in which a frame continues match the rows. -/
theorem exists_of_mem_matchRows {frame : Frame} {outputs : Value} {rows : List Fields}
    (h : matchRows frame outputs rows = .ok kept) : ∀ extended ∈ kept,
    ∃ row ∈ rows, frame.unifyValue? .optional outputs (.object row) = .ok (some extended) := by
  induction rows generalizing kept with
  | nil =>
    obtain rfl : [] = kept := Except.ok.inj h
    simp
  | cons row rest ih =>
    obtain ⟨here, hhere, h⟩ := bind_eq_ok_iff.mp h
    obtain ⟨others, hothers, h⟩ := bind_eq_ok_iff.mp h
    obtain rfl := Except.ok.inj h
    intro extended hmem
    rcases List.mem_append.mp hmem with hmem | hmem
    · exact ⟨row, List.mem_cons_self, hhere.trans (by rw [Option.mem_toList.mp hmem])⟩
    · obtain ⟨row', hrow, hmatch⟩ := ih hothers extended hmem
      exact ⟨row', List.mem_cons_of_mem _ hrow, hmatch⟩

/-- What a query joins a frame with are rows that its adapter answers. -/
theorem made_of_mem_joinRows {adapter : κ} {inputs outputs : Value} {frame extended : Frame}
    {s t : σ} (h : (joinRows adapters adapter inputs outputs frame).run s = (.ok kept, t))
    (hmem : extended ∈ kept) :
    Step.Made adapters ⟨.query adapter inputs outputs, frame, extended⟩ := by
  rw [joinRows] at h
  obtain ⟨args, s', hargs, hrest⟩ := exists_of_run_bind h
  obtain ⟨rows, u, hcall, hlast⟩ := exists_of_run_bind hrest
  have hfill : inputs.fill frame = .ok args := congrArg Prod.fst hargs
  have hmatch := congrArg Prod.fst hlast
  rw [callAdapter] at hcall
  obtain ⟨outcome, w, hattempt, hcall⟩ := exists_of_run_bind hcall
  have hanswer := run_of_run_attempt hattempt
  cases outcome with
  | error fault => cases congrArg Prod.fst hcall
  | ok answer =>
    obtain ⟨row, hrow, hunify⟩ :=
      exists_of_mem_matchRows (mapError_eq_ok_iff.mp hmatch) extended hmem
    exact .joined hfill (congrArg Prod.fst hanswer) (congrArg Prod.fst hcall) hrow hunify

/-- What a stage leaves it makes of what it was given. -/
theorem exists_made {stage : Stage κ} {s t : σ}
    (h : (stage.apply adapters frames).run s = (.ok kept, t)) :
    ∀ next ∈ kept, ∃ frame ∈ frames, Step.Made adapters ⟨stage, frame, next⟩ := by
  intro next hmem
  cases stage with
  | filter test =>
    obtain ⟨hf, htest⟩ :=
      mem_of_keep (mapError_eq_ok_iff.mp (congrArg Prod.fst h)) next hmem
    exact ⟨next, hf, .kept htest⟩
  | map change =>
    obtain ⟨frame, hf, hchange⟩ :=
      exists_of_mem_changeAll (mapError_eq_ok_iff.mp (congrArg Prod.fst h)) next hmem
    obtain ⟨hchanged, hall⟩ := changeOne_eq_ok_iff.mp hchange
    exact ⟨frame, hf, .changed hchanged hall⟩
  | query adapter inputs outputs =>
    obtain ⟨parts, u, hgather, h⟩ := exists_of_run_bind h
    obtain rfl := Except.ok.inj (congrArg Prod.fst h)
    obtain ⟨part, hpart, hmem⟩ := List.mem_flatten.mp hmem
    have hturn : .ok part ∈ (turns (joinRows adapters adapter inputs outputs) frames
        (adapters.wait.before.run s).2).map (ofTurn (joinRows adapters adapter inputs outputs)) :=
      map_ofTurn_of_run_gather hgather ▸ List.mem_map_of_mem hpart
    obtain ⟨turn, hturn, hjoin⟩ := List.mem_map.mp hturn
    have hframe : turn.1 ∈ frames := by
      have hfst := List.mem_map_of_mem (f := Prod.fst) hturn
      rwa [map_turns] at hfst
    exact ⟨turn.1, hframe, made_of_mem_joinRows (Prod.ext hjoin rfl) hmem⟩

/-- Every frame that the stages leave descends from one that they were given. -/
theorem exists_line {stages : List (Stage κ)} {s t : σ}
    (h : (applyAll adapters stages frames).run s = (.ok kept, t)) :
    ∀ last ∈ kept, ∃ first ∈ frames, ∃ line : List (Step κ), line.map Step.stage = stages ∧
      (∀ step ∈ line, step.Made adapters) ∧ Descends first line last := by
  rw [← run_applyEvery] at h
  intro last hmem
  induction stages generalizing frames s with
  | nil =>
    obtain rfl := Except.ok.inj (congrArg Prod.fst h)
    exact ⟨last, hmem, [], rfl, nofun, .refl last⟩
  | cons stage rest ih =>
    obtain ⟨next, u, hstage, h⟩ := exists_of_run_bind h
    obtain ⟨frame, hframe, line, hline, hmade, hdescends⟩ := ih h
    obtain ⟨first, hfirst, hstep⟩ := exists_made hstage frame hframe
    exact ⟨first, hfirst, ⟨stage, first, frame⟩ :: line, congrArg (stage :: ·) hline,
      List.forall_mem_cons.mpr ⟨hstep, hmade⟩, .step ⟨stage, first, frame⟩ hdescends⟩

end Stage

/-! ### Through a rule -/

namespace Rule

variable {adapters : Adapters σ κ} {rule : Rule κ} {frames kept : List Frame} {s t : σ}

/-- No stage unbinds a symbol. When the stages of a rule succeed, whatever they test, change and ask
for, each frame that is left descends from one that they were given, binds every symbol that one
binds, and to the same value unless a change on the way overwrites it. So where the frames come from
a match of the rule's patterns, every symbol that one of these names in its output is bound in every
frame that is left. What the actions fail at is a symbol that they name and that some frame lacks a
value for, and a symbol that is not bound is then none that a pattern names in its output. -/
theorem stages_keep (hrun : (Stage.applyAll adapters rule.stages frames).run s = (.ok kept, t)) :
    (∀ last ∈ kept, ∃ first ∈ frames, ∃ line : List (Stage.Step κ),
      line.map Stage.Step.stage = rule.stages ∧ (∀ step ∈ line, step.Made adapters) ∧
      Stage.Descends first line last ∧
      ∀ symbol v, first.get? symbol = some v → last.binds symbol = true ∧
        ((∀ step ∈ line, ¬step.Overwrites symbol) → last.get? symbol = some v)) ∧
    ∀ {log : List Event} {found : List Combination},
      Pattern.combinations rule.patterns log = .ok found → frames ⊆ found.map Prod.fst →
      (∀ pattern ∈ rule.patterns, ∀ symbol, pattern.Gives symbol →
        ∀ last ∈ kept, last.binds symbol = true) ∧
      ∀ fault, rule.dispatches kept = .error fault →
        ∃ last ∈ kept, ∃ template ∈ rule.actions, ∃ symbol, template.args.Names symbol ∧
          last.Lacks symbol fault ∧
          (last.get? symbol = none → ∀ pattern ∈ rule.patterns, ¬pattern.Gives symbol) := by
  have hlines := Stage.exists_line hrun
  refine ⟨fun last hlast => ?_, fun {log found} hfound hframes => ?_⟩
  · obtain ⟨first, hfirst, line, hline, hmade, hdescends⟩ := hlines last hlast
    exact ⟨first, hfirst, line, hline, hmade, hdescends, fun _ _ hs => hdescends.keeps hmade hs⟩
  · have hgiven : ∀ pattern ∈ rule.patterns, ∀ symbol, pattern.Gives symbol →
        ∀ last ∈ kept, last.binds symbol = true := by
      intro pattern hp symbol hgives last hlast
      obtain ⟨first, hfirst, line, -, hmade, hdescends⟩ := hlines last hlast
      obtain ⟨c, hc, rfl⟩ := List.mem_map.mp (hframes hfirst)
      obtain ⟨b, -, hby⟩ := (Pattern.mem_joinAll hfound).mp hc
      obtain ⟨v, hv⟩ := Option.isSome_iff_exists.mp (hby.binds hp hgives)
      exact (hdescends.keeps hmade hv).1
    refine ⟨hgiven, fun fault hfault => ?_⟩
    obtain ⟨last, hlast, template, htemplate, symbol, hnames, hlacks⟩ :=
      exists_names_of_dispatches hfault
    refine ⟨last, hlast, template, htemplate, symbol, hnames, hlacks, fun hnone pattern hp hg => ?_⟩
    have hbinds := hgiven pattern hp symbol hg last hlast
    rw [Frame.binds, hnone] at hbinds
    cases hbinds

/-- Adapters that know of two bells, and of the second one not by what name. -/
def bells : Adapters Unit Unit where
  name _ := "bells"
  call _ _ := pure (.list [.object [("bell", .str "great")], .object []])
  wait := ⟨pure (), pure ()⟩

/-- The rule by which every bell is struck when the clock ticks, and more than it has ticked. -/
def pealing : Rule Unit where
  name := "pealing"
  patterns := [⟨"Clock", "tick", .object [], .object [("n", .symbol (.plain "pealing" "n"))]⟩]
  stages :=
    [.query () (.object []) (.object [("bell", .symbol (.plain "pealing" "bell"))]),
      .map fun frame => .ok (frame.bind (.plain "pealing" "n") (.str "more"))]
  actions := [⟨"Bell", "strike", .object [("bell", .symbol (.plain "pealing" "bell")),
    ("n", .symbol (.plain "pealing" "n"))]⟩]

/-- A flow in which the clock has ticked once. -/
def oneTick : List Event := [⟨0, "Clock", "tick", .object [], .object [("n", .int 1)], "flow-1"⟩]

/-- The number that the clock tells is known for both bells, though it was overwritten. That the
second bell cannot be struck is because its name, which the clock does not tell, is not known. -/
theorem stages_keep_pealing : ∃ found kept fault,
    Pattern.combinations pealing.patterns oneTick = .ok found ∧
    (Stage.applyAll bells pealing.stages (found.map Prod.fst)).run () = (.ok kept, ()) ∧
    kept.length = 2 ∧ (∀ last ∈ kept, last.binds (.plain "pealing" "n") = true) ∧
    pealing.dispatches kept = .error fault ∧
    ∃ last ∈ kept, ∃ template ∈ pealing.actions, ∃ symbol, template.args.Names symbol ∧
      last.Lacks symbol fault ∧
      (last.get? symbol = none → ∀ pattern ∈ pealing.patterns, ¬pattern.Gives symbol) := by
  obtain ⟨found, kept, fault, hfound, hrun, hlength, hfault⟩ : ∃ found kept fault,
      Pattern.combinations pealing.patterns oneTick = .ok found ∧
      (Stage.applyAll bells pealing.stages (found.map Prod.fst)).run () = (.ok kept, ()) ∧
      kept.length = 2 ∧ pealing.dispatches kept = .error fault :=
    ⟨_, _, _, rfl, rfl, rfl, rfl⟩
  obtain ⟨-, hmatched⟩ := stages_keep hrun
  obtain ⟨hgiven, hlacks⟩ := hmatched hfound (List.Subset.refl _)
  have hn := hgiven _ List.mem_cons_self (.plain "pealing" "n") ⟨"n", List.mem_cons_self⟩
  exact ⟨found, kept, fault, hfound, hrun, hlength, hn, hfault, hlacks fault hfault⟩

end Rule

end HerdBook
