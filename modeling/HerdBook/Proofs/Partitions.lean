import HerdBook.Proofs.Consultations
import HerdBook.Proofs.Programs
import HerdBook.Proofs.Tables

/-!
# Outcomes part the frames

An adapter of outcomes asks something and makes one row of the answer, with a value for every field
of a success and for the error. So a query whose pattern binds all of them continues each frame in
exactly one frame, and the placeholder under the error tells those apart whose answer was a success.
An answer that is neither makes the whole query fail, and no frame is left with a symbol unbound.

* `Outcome.Tells`: the values that an answer stands for.
* `Adapters.ReportsOutcomes`: the adapter makes the row of an outcome of what it is answered.
* `Stage.Told`: what becomes of one frame of such a query.

## Main results

* `Stage.exists_told`: the frames of a query that succeeds have each been told an outcome.
* `Stage.query_partitions`: what the two checks on the error make of these frames.
-/

namespace HerdBook

open Effect

variable {ω κ α β : Type}

namespace Table

variable [DecidableEq α]

/-- In a table that is made by setting names, each is found with what is made of it. -/
theorem get?_ofPairs_map (key : α) (f : α → β) (names : List α) :
    get? key (ofPairs (names.map fun n => (n, f n)))
      = if key ∈ names then some (f key) else none := by
  have hmerge : ∀ base : List (α × β), get? key (merge base (names.map fun n => (n, f n)))
      = if key ∈ names then some (f key) else get? key base := by
    induction names with
    | nil => exact fun base => rfl
    | cons n names ih =>
      intro base
      change get? key (merge (set n (f n) base) (names.map fun n => (n, f n))) = _
      rw [ih, get?_set]
      by_cases hn : n = key
      · simp [hn]
      · simp [hn, Ne.symm hn]
  exact hmerge []

end Table

/-! ### What an answer tells -/

namespace Outcome

/-- The values that an answer stands for, by name. A success has all its fields and the placeholder
for the error, a failure has the error as text and the placeholder for all fields. -/
inductive Tells (fields : List String) (answer : Fields) (values : String → Value) : Prop where
  | success (h : Table.get? "error" answer = none)
    (hfields : ∀ field ∈ fields, Table.get? field answer = some (values field))
    (herror : values "error" = .notApplicable)
  | failure {error : Value} {words : String} (h : Table.get? "error" answer = some error)
    (hwords : error.text = .ok words) (herror : values "error" = .str words)
    (hfields : ∀ field ∈ fields, values field = .notApplicable)

/-- The error that is told is the placeholder exactly for a success. -/
theorem Tells.isNotApplicable {fields : List String} {answer : Fields} {values : String → Value}
    (h : Tells fields answer values) :
    (values "error").isNotApplicable = !Table.has "error" answer := by
  cases h with
  | success h _ herror => rw [herror, Table.has, h]; rfl
  | failure h _ herror _ => rw [herror, Table.has, h]; rfl

/-- The row of an answer. -/
def rowOf (fields : List String) (answer : Value) : Except Fault Fields :=
  ofAnswer answer >>= row fields

/-- The row of a success holds its fields. -/
theorem tells_of_row_success {fields : List String} (hf : "error" ∉ fields) {answer found : Fields}
    (h : Table.get? "error" answer = none) (hrow : row fields (.success answer) = .ok found) :
    ∃ values, Tells fields answer values ∧
      ∀ name, name = "error" ∨ name ∈ fields → Table.get? name found = some (values name) := by
  rw [row] at hrow
  dsimp only at hrow
  split at hrow
  · next hmissing =>
    obtain rfl := Except.ok.inj hrow
    refine ⟨fun name => if name = "error" then .notApplicable else
      (Table.get? name answer).getD .null, .success h (fun field hfield => ?_) rfl,
      fun name hname => ?_⟩
    · rw [List.isEmpty_iff, List.filter_eq_nil_iff] at hmissing
      have hhas := hmissing field hfield
      rw [if_neg fun heq : field = "error" => hf (heq ▸ hfield)]
      cases hget : Table.get? field answer with
      | none => simp [Table.has, hget] at hhas
      | some v => rfl
    · rw [Table.get?_set, Table.get?_ofPairs_map]
      by_cases heq : name = "error"
      · simp [heq]
      · simp [heq, Ne.symm heq, hname.resolve_left heq]
  · cases hrow

/-- The row of a failure holds the error. -/
theorem tells_of_row_failure {fields : List String} (hf : "error" ∉ fields) {answer found : Fields}
    {error : Value} {words : String} (h : Table.get? "error" answer = some error)
    (hwords : error.text = .ok words) (hrow : row fields (.failure words) = .ok found) :
    ∃ values, Tells fields answer values ∧
      ∀ name, name = "error" ∨ name ∈ fields → Table.get? name found = some (values name) := by
  obtain rfl := Except.ok.inj hrow
  refine ⟨fun name => if name = "error" then .str words else .notApplicable,
    .failure h hwords rfl fun field hfield =>
      if_neg fun heq : field = "error" => hf (heq ▸ hfield), fun name hname => ?_⟩
  rw [Table.get?_set, Table.get?_ofPairs_map]
  by_cases heq : name = "error"
  · simp [heq]
  · simp [heq, Ne.symm heq, hname.resolve_left heq]

/-- A row holds what the answer tells. -/
theorem exists_tells {fields : List String} (hf : "error" ∉ fields) {answer : Value}
    {found : Fields} (h : rowOf fields answer = .ok found) :
    ∃ answered values, answer = .object answered ∧ Tells fields answered values ∧
      ∀ name, name = "error" ∨ name ∈ fields → Table.get? name found = some (values name) := by
  obtain ⟨outcome, houtcome, hrow⟩ := bind_eq_ok_iff.mp h
  cases answer with
  | object answered =>
    rw [ofAnswer] at houtcome
    cases herror : Table.get? "error" answered with
    | none =>
      rw [herror] at houtcome
      obtain rfl := Except.ok.inj houtcome
      obtain ⟨values, htells, hfound⟩ := tells_of_row_success hf herror hrow
      exact ⟨answered, values, rfl, htells, hfound⟩
    | some error =>
      rw [herror] at houtcome
      dsimp only at houtcome
      cases hwords : error.text with
      | error kind =>
        rw [hwords] at houtcome
        cases houtcome
      | ok words =>
        rw [hwords] at houtcome
        obtain rfl := Except.ok.inj houtcome
        obtain ⟨values, htells, hfound⟩ := tells_of_row_failure hf herror hwords hrow
        exact ⟨answered, values, rfl, htells, hfound⟩
  | _ => cases houtcome

/-- The complaint about a success that lacks fields. -/
def lacking (fields : List String) (answer : Fields) : Fault :=
  .failed .adapter ("success result is missing "
    ++ ", ".intercalate (fields.filter fun name => !Table.has name answer)) none

/-- A success that lacks a field has no row. -/
theorem rowOf_of_lacks {fields : List String} {answer : Fields}
    (h : Table.get? "error" answer = none) {field : String} (hfield : field ∈ fields)
    (hlacks : Table.get? field answer = none) :
    rowOf fields (.object answer) = .error (lacking fields answer) := by
  have hmissing : (fields.filter fun name => !Table.has name answer).isEmpty ≠ true := by
    rw [Ne, List.isEmpty_iff, List.filter_eq_nil_iff]
    exact fun hall => hall field hfield (by simp [Table.has, hlacks])
  rw [rowOf, ofAnswer, h]
  exact if_neg hmissing

end Outcome

/-! ### Adapters of outcomes -/

/-- The adapter asks something by `ask`, and makes the row of an outcome of what it is answered. -/
def Adapters.ReportsOutcomes (adapters : Adapters (Engine ω κ) α) (adapter : α)
    (fields : List String) (ask : Value → Effect (Engine ω κ) Value) : Prop :=
  ∃ (label : String) (respond : (call : EngineCall κ) → Effect (Engine ω κ) call.Answer),
    ∀ args, adapters.call adapter args
      = ask args >>= fun answer => (Lookup.rowsOfAnswer label fields answer).run respond

/-- A program that goes on with a result is carried out as an effect that does. -/
theorem Program.run_andThen (respond : (call : EngineCall κ) → Effect (Engine ω κ) call.Answer)
    (program : Program ω κ α) (next : α → Program ω κ β) :
    (program >>= next).run respond = program.run respond >>= fun a => (next a).run respond := by
  refine funext fun engine => (run_attemptThen program _ engine).trans ?_
  change _ = Effect.run (program.run respond >>= fun a => (next a).run respond) engine
  rw [run_bind]
  rcases (program.run respond).run engine with ⟨fault | a, engine'⟩ <;> rfl

namespace Lookup

variable (respond : (call : EngineCall κ) → Effect (Engine ω κ) call.Answer)

/-- What comes of an answer is its row. -/
theorem run_rowsOfAnswer (label : String) (fields : List String) (answer : Value)
    (engine : Engine ω κ) :
    (((rowsOfAnswer label fields answer).run respond).run engine).1
      = (Outcome.rowOf fields answer).map fun found => .list [.object found] := by
  rw [rowsOfAnswer, Outcome.rowOf]
  cases Outcome.ofAnswer answer with
  | error fault => rfl
  | ok outcome =>
    have hrows : ∀ engine : Engine ω κ,
        ((Program.run respond (do
          return .list ((← Program.ofExcept (outcome.rows fields)).map .object))).run engine).1
          = (outcome.row fields).map fun found => Value.list [.object found] := by
      intro engine
      rw [Outcome.rows]
      cases outcome.row fields <;> rfl
    cases outcome with
    | success found => exact hrows engine
    | failure error => exact hrows _

/-- What a lookup asks a concept. -/
def ask (concept action : String) : Value → Program ω κ Value
  | .object args =>
    if action.startsWith "_" then Program.query concept action args
    else Program.call concept action args
  | _ => Program.fail (.misuse .type)

/-- The lookups of the rules report outcomes of what they ask a concept. -/
theorem reportsOutcomes {adapters : Adapters (Engine ω κ) Lookup}
    (h : ∀ lookup args, adapters.call lookup args = (program lookup args).run respond)
    (concept action : String) (fields : List String) :
    adapters.ReportsOutcomes (.answer concept action fields) fields
      fun args => (ask concept action args).run respond := by
  refine ⟨concept ++ "." ++ action, respond, fun args => ?_⟩
  rw [h, ← Program.run_andThen]
  cases args with
  | object args =>
    rw [program, askConcept, ask]
    split <;> rfl
  | _ => rfl

end Lookup

/-- So do the adapters of outcomes that a script defines. -/
theorem AdapterCode.reportsOutcomes {adapters : Adapters (Engine World AdapterCode) AdapterCode}
    {respond : (call : EngineCall AdapterCode) →
      Effect (Engine World AdapterCode) call.Answer}
    (h : ∀ code args, adapters.call code args = (program code args).run respond)
    (number : Nat) (name call : String) (fields : List String) (behaviour : Behaviour) :
    adapters.ReportsOutcomes (.outcome number name call fields behaviour) fields fun args =>
      (Program.leaving (behaviour.calledByName (.adapter number) "call" args)).run respond := by
  refine ⟨if name.isEmpty then call else name, respond, fun args => ?_⟩
  rw [h, ← Program.run_andThen]
  rfl

/-! ### New symbols -/

/-- The pattern that binds symbols to the fields with the given names. -/
def outputsOf (pairs : List (String × Symbol)) : Fields := pairs.map fun p => (p.1, .symbol p.2)

namespace Frame

variable {frame : Frame} {pairs : List (String × Symbol)} {data : Fields} {values : String → Value}

/-- New symbols bind to what the data hold. -/
theorem unifyFields_outputsOf (presence : Presence) {made : List (Symbol × Value)}
    (hdata : ∀ p ∈ pairs, Table.get? p.1 data = some (values p.1))
    (hsymbols : (pairs.map Prod.snd).Nodup) (hframe : ∀ p ∈ pairs, frame.get? p.2 = none)
    (hmade : ∀ p ∈ pairs, Table.get? p.2 made = none) :
    frame.unifyFields presence data (outputsOf pairs) made
      = some (made ++ pairs.map fun p => (p.2, values p.1)) := by
  induction pairs generalizing made with
  | nil => exact congrArg some (List.append_nil made).symm
  | cons p rest ih =>
    rw [List.forall_mem_cons] at hdata hframe hmade
    obtain ⟨hnew, hsymbols⟩ := List.nodup_cons.mp hsymbols
    have hafter : ∀ q ∈ rest, Table.get? q.2 (made ++ [(p.2, values p.1)]) = none := by
      intro q hq
      have hne : p.2 ≠ q.2 := fun heq => hnew (heq ▸ List.mem_map_of_mem hq)
      simp [Table.get?_append, hmade.2 q hq, Table.get?, hne]
    change frame.unifyFields presence data ((p.1, .symbol p.2) :: outputsOf rest) made = _
    rw [unifyFields, hdata.1]
    dsimp only
    rw [unifyDatum, hframe.1, hmade.1]
    change frame.unifyFields presence data (outputsOf rest) (made ++ [(p.2, values p.1)]) = _
    rw [ih hdata.2 hsymbols hframe.2 hafter, List.append_assoc]
    rfl

variable (frame) in
/-- A pattern of new symbols extends a frame by exactly these. -/
theorem unify?_outputsOf (presence : Presence)
    (hdata : ∀ p ∈ pairs, Table.get? p.1 data = some (values p.1))
    (hsymbols : (pairs.map Prod.snd).Nodup) (hframe : ∀ p ∈ pairs, frame.get? p.2 = none) :
    ∃ extended, frame.unify? presence (outputsOf pairs) data = some extended ∧
      extended.bindings = frame.bindings ++ pairs.map fun p => (p.2, values p.1) := by
  refine ⟨frame.extend (pairs.map fun p => (p.2, values p.1)), ?_, ?_⟩
  · rw [unify?, unifyFields_outputsOf presence hdata hsymbols hframe fun _ _ => rfl]
    rfl
  · have hkeys : Table.keys (pairs.map fun p => (p.2, values p.1)) = pairs.map Prod.snd := by
      rw [Table.keys, List.map_map]
      rfl
    refine Table.merge_eq_append (hkeys ▸ hsymbols) fun s hs => ?_
    rw [hkeys, List.mem_map] at hs
    obtain ⟨p, hp, rfl⟩ := hs
    exact hframe p hp

end Frame

/-! ### Frames that are told an outcome -/

/-- The pattern of an outcome: it binds new symbols to fields of the success, and one to the
error. -/
structure Binds (fields : List String) (pairs : List (String × Symbol)) (e : Symbol) : Prop where
  noError : "error" ∉ fields
  names : ∀ p ∈ pairs, p.1 = "error" ∨ p.1 ∈ fields
  error : ("error", e) ∈ pairs
  symbols : (pairs.map Prod.snd).Nodup

namespace Stage

variable {ask : Value → Effect (Engine ω κ) Value} {inputs : Value} {fields : List String}
  {pairs : List (String × Symbol)} {e : Symbol} {frames : List Frame}

variable (ask inputs fields pairs) in
/-- What becomes of a frame of a query for outcomes: on its turn it is asked for, and what the
answer tells is bound to the symbols. -/
structure Told (turn : Frame × Engine ω κ) (told : Fields × Frame) : Prop where
  asked : ∃ args, inputs.fill turn.1 = .ok args ∧ ((ask args).run turn.2).1 = .ok (.object told.1)
  binds : ∃ values, Outcome.Tells fields told.1 values ∧
    told.2.bindings = turn.1.bindings ++ pairs.map fun p => (p.2, values p.1)

variable (ask inputs fields) in
/-- On its turn, a frame is answered by a success that lacks a field. -/
def Lacks (turn : Frame × Engine ω κ) : Prop :=
  ∃ args answer, inputs.fill turn.1 = .ok args ∧
    ((ask args).run turn.2).1 = .ok (.object answer) ∧ Table.get? "error" answer = none ∧
    ∃ field ∈ fields, Table.get? field answer = none

variable {adapters : Adapters (Engine ω κ) α} {adapter : α}

/-- What a call for outcomes comes to. -/
theorem run_call_of_reports (h : adapters.ReportsOutcomes adapter fields ask) (args : Value)
    (engine : Engine ω κ) :
    ((adapters.call adapter args).run engine).1
      = ((ask args).run engine).1 >>= fun answer =>
          (Outcome.rowOf fields answer).map fun found => .list [.object found] := by
  obtain ⟨label, respond, h⟩ := h
  rw [h, run_bind]
  rcases (ask args).run engine with ⟨fault | answer, engine'⟩
  · rfl
  · exact Lookup.run_rowsOfAnswer respond label fields answer engine'

/-- A frame that continues at all is told an outcome, and continues in one frame. -/
theorem exists_told (h : adapters.ReportsOutcomes adapter fields ask) (hb : Binds fields pairs e)
    {turn : Frame × Engine ω κ} (hfresh : ∀ p ∈ pairs, turn.1.get? p.2 = none) {part : List Frame}
    (hr : ofTurn (joinRows adapters adapter inputs (.object (outputsOf pairs))) turn = .ok part) :
    ∃ told, Told ask inputs fields pairs turn told ∧ part = [told.2] := by
  obtain ⟨frame, engine⟩ := turn
  rw [ofTurn] at hr
  cases hfill : inputs.fill frame with
  | error fault =>
    rw [run_joinRows_of_error _ _ hfill] at hr
    cases hr
  | ok args =>
    obtain ⟨outcome, hcontinues, hrun⟩ :=
      exists_continuesIn adapters adapter (outputsOf pairs) hfill engine
    rw [hrun] at hr
    obtain rfl : outcome = .ok part := hr
    rw [run_call_of_reports h] at hcontinues
    generalize hcall : (((ask args).run engine).1 >>= _) = reply at hcontinues
    cases hcontinues with
    | @rows answer rows hrows =>
      obtain ⟨said, hsaid, hfound⟩ := bind_eq_ok_iff.mp hcall
      cases hrow : Outcome.rowOf fields said with
      | error fault =>
        rw [hrow] at hfound
        cases hfound
      | ok found =>
        rw [hrow] at hfound
        obtain rfl := Except.ok.inj hfound
        obtain ⟨answered, values, rfl, htells, hvalues⟩ := Outcome.exists_tells hb.noError hrow
        obtain ⟨extended, hunify, hbindings⟩ := Frame.unify?_outputsOf frame .optional
          (fun p hp => hvalues p.1 (hb.names p hp)) hb.symbols hfresh
        obtain rfl : [found] = rows :=
          List.map_injective_iff.mpr (fun _ _ => Value.object.inj) (Option.some.inj hrows)
        refine ⟨(answered, extended), ⟨⟨args, hfill, hsaid⟩, values, htells, hbindings⟩, ?_⟩
        rw [List.filterMap_cons, hunify]
        rfl

/-- So are all frames, when all of them continue. -/
theorem exists_all_told (h : adapters.ReportsOutcomes adapter fields ask)
    (hb : Binds fields pairs e) {asked : List (Frame × Engine ω κ)}
    (hfresh : ∀ turn ∈ asked, ∀ p ∈ pairs, turn.1.get? p.2 = none) {parts : List (List Frame)}
    (hr : asked.map (ofTurn (joinRows adapters adapter inputs (.object (outputsOf pairs))))
      = parts.map .ok) :
    ∃ told, List.Forall₂ (Told ask inputs fields pairs) asked told ∧
      parts.flatten = told.map Prod.snd := by
  induction asked generalizing parts with
  | nil =>
    obtain rfl := List.map_eq_nil_iff.mp hr.symm
    exact ⟨[], .nil, rfl⟩
  | cons turn rest ih =>
    rw [List.forall_mem_cons] at hfresh
    cases parts with
    | nil => cases hr
    | cons part parts =>
      obtain ⟨hturn, hrest⟩ := List.cons.inj hr
      obtain ⟨first, hfirst, rfl⟩ := exists_told h hb hfresh.1 hturn
      obtain ⟨told, htold, hparts⟩ := ih hfresh.2 hrest
      exact ⟨first :: told, .cons hfirst htold, congrArg (first.2 :: ·) hparts⟩

/-- On a frame that is told an outcome, the error is bound to the placeholder exactly for a
success. -/
theorem Told.read_error (hb : Binds fields pairs e) {turn : Frame × Engine ω κ}
    {told : Fields × Frame} (h : Told ask inputs fields pairs turn told) :
    ∃ v, told.2.read e = .ok v ∧ v.isNotApplicable = !Table.has "error" told.1 := by
  obtain ⟨values, htells, hbindings⟩ := h.binds
  have hmem : (e, values "error") ∈ told.2.bindings :=
    hbindings ▸ List.mem_append_right _ (List.mem_map_of_mem hb.error)
  have hget : told.2.get? e = some (values "error") := Table.get?_of_mem told.2.nodup hmem
  exact ⟨values "error", by rw [Frame.read, hget], htells.isNotApplicable⟩

/-- The same on all frames. -/
theorem forall_read_error (hb : Binds fields pairs e) {asked : List (Frame × Engine ω κ)}
    {told : List (Fields × Frame)} (h : List.Forall₂ (Told ask inputs fields pairs) asked told) :
    ∀ t ∈ told, ∃ v, t.2.read e = .ok v ∧ v.isNotApplicable = !Table.has "error" t.1 := by
  induction h with
  | nil => exact nofun
  | cons hturn _ ih => exact List.forall_mem_cons.mpr ⟨hturn.read_error hb, ih⟩

/-- A frame whose answer is a success that lacks a field ends in a fault. -/
theorem ofTurn_of_lacks (h : adapters.ReportsOutcomes adapter fields ask)
    {turn : Frame × Engine ω κ} (hl : Lacks ask inputs fields turn) (pattern : Fields) :
    ∃ fault, ofTurn (joinRows adapters adapter inputs (.object pattern)) turn = .error fault := by
  obtain ⟨frame, engine⟩ := turn
  obtain ⟨args, answer, hfill, hsaid, herror, field, hfield, hlacks⟩ := hl
  obtain ⟨outcome, hcontinues, hrun⟩ := exists_continuesIn adapters adapter pattern hfill engine
  rw [run_call_of_reports h, hsaid] at hcontinues
  have hcall : (Except.ok (Value.object answer) >>= fun answer =>
      (Outcome.rowOf fields answer).map fun found => Value.list [.object found])
        = .error (Outcome.lacking fields answer) := by
    change (Outcome.rowOf fields (.object answer)).map _ = _
    rw [Outcome.rowOf_of_lacks herror hfield hlacks]
    rfl
  rw [hcall] at hcontinues
  rw [ofTurn, hrun]
  cases hcontinues with
  | passed _ => exact ⟨_, rfl⟩
  | wrapped _ => exact ⟨_, rfl⟩

/-- A filter keeps the items on which its test holds. -/
theorem run_filter_map {test : Frame → Except Fault Bool} {items : List β} {f : β → Frame}
    {p : β → Bool} (h : ∀ b ∈ items, test (f b) = .ok (p b)) (engine : Engine ω κ) :
    ((filter test : Stage α).apply adapters (items.map f)).run engine
      = (.ok ((items.filter p).map f), engine) := by
  have hkeep : keep test (items.map f) = .ok ((items.filter p).map f) := by
    induction items with
    | nil => rfl
    | cons b rest ih =>
      rw [List.forall_mem_cons] at h
      rw [List.map_cons, keep, h.1, ih h.2, List.filter_cons]
      cases p b <;> rfl
  rw [apply, hkeep]
  rfl

variable (inputs) in
/-- A query for outcomes parts its frames. If it does not fail, it has one frame for each frame that
it was run on, in their order, which binds the new symbols and no others to what the answer on its
turn tells: the fields of a success, or the error of a failure, and the placeholder for the rest.
The check that the error is inapplicable keeps exactly the frames of successes, and the check that
it is applicable exactly the others. And the query does fail where an answer is a success that lacks
a field. -/
theorem query_partitions (h : adapters.ReportsOutcomes adapter fields ask)
    (hb : Binds fields pairs e) (hfresh : ∀ frame ∈ frames, ∀ p ∈ pairs, frame.get? p.2 = none)
    (engine : Engine ω κ) :
    let asked := turns (joinRows adapters adapter inputs (.object (outputsOf pairs))) frames
      (adapters.wait.before.run engine).2
    let queried := (query adapter inputs (.object (outputsOf pairs))).apply adapters frames
    (∀ result engine', queried.run engine = (.ok result, engine') →
      ∃ told : List (Fields × Frame), List.Forall₂ (Told ask inputs fields pairs) asked told ∧
        result = told.map Prod.snd ∧
        ∃ good bad, good = (told.filter fun t => !Table.has "error" t.1).map Prod.snd ∧
          bad = (told.filter fun t => Table.has "error" t.1).map Prod.snd ∧
          (good ++ bad).Perm result ∧
          ∀ now,
            ((filter fun frame => (Check.inapplicable e).holds frame).apply adapters result).run now
              = (.ok good, now) ∧
            ((filter fun frame => (Check.applicable e).holds frame).apply adapters result).run now
              = (.ok bad, now)) ∧
    ((∃ turn ∈ asked, Lacks ask inputs fields turn) →
      ∃ fault, (queried.run engine).1 = .error fault) := by
  intro asked queried
  have hitems : asked.map Prod.fst = frames := map_turns ..
  constructor
  · intro result engine' hrun
    obtain ⟨parts, engine₁, hgather, hresult⟩ := exists_of_run_bind hrun
    obtain rfl : parts.flatten = result := Except.ok.inj (congrArg Prod.fst hresult)
    have hfreshTurns : ∀ turn ∈ asked, ∀ p ∈ pairs, turn.1.get? p.2 = none := fun turn hturn =>
      hfresh turn.1 (hitems ▸ List.mem_map_of_mem hturn)
    obtain ⟨told, htold, hparts⟩ := exists_all_told h hb hfreshTurns
      (map_ofTurn_of_run_gather hgather)
    refine ⟨told, htold, hparts, _, _, rfl, rfl, ?_, fun now => ?_⟩
    · rw [hparts, ← List.map_append]
      refine List.Perm.map _ ?_
      have hsplit := List.filter_append_perm (fun t : Fields × Frame => !Table.has "error" t.1) told
      simpa only [Bool.not_not] using hsplit
    · have hread := forall_read_error hb htold
      rw [hparts]
      constructor
      · refine run_filter_map (fun t ht => ?_) now
        obtain ⟨v, hv, hna⟩ := hread t ht
        rw [Check.holds, hv, ← hna]
        rfl
      · refine run_filter_map (fun t ht => ?_) now
        obtain ⟨v, hv, hna⟩ := hread t ht
        rw [Check.holds, hv, ← Bool.not_not (Table.has ..), ← hna]
        rfl
  · rintro ⟨turn, hturn, hlacks⟩
    obtain ⟨fault, hfault⟩ := ofTurn_of_lacks h hlacks (outputsOf pairs)
    obtain ⟨first, hfirst⟩ := exists_error_of_turn hturn hfault
    exact ⟨first, congrArg Prod.fst (run_bind_error (Prod.ext hfirst rfl))⟩

/-- What is said of a herd: an animal for the ewes, an error for the rams, nothing for others. -/
def saidOfHerd (args : Value) : Effect (Engine Unit Unit) Value :=
  return .object (
    if args.same (.object [("herd", .str "ewes")]) then [("animal", .str "dolly")]
    else if args.same (.object [("herd", .str "rams")]) then [("error", .str "no rams")]
    else [])

/-- The adapter that reports what is said of a herd. -/
def herdReport : Adapters (Engine Unit Unit) Unit where
  name _ := "herd"
  call _ args := saidOfHerd args >>= fun answer =>
    (Lookup.rowsOfAnswer "herd" ["animal"] answer).run fun _ => throw .abandoned
  wait := ⟨pure (), pure ()⟩

/-- The symbols for the error and for the animal of a herd. -/
def animalOrError : List (String × Symbol) :=
  [("error", .plain "list" "error"), ("animal", .plain "list" "animal")]

/-- The ewes and the rams. -/
def ewesAndRams : List Frame := [ofHerd "ewes", ofHerd "rams"]

/-- The query for the animals of herds. -/
def herdQuery : Stage Unit := .query () animalsOfHerd.1 (.object (outputsOf animalOrError))

/-- An engine on which nothing has happened. -/
def idleEngine : Engine Unit Unit := .start () (.count 9) (.count 9)

/-- The ewes and the rams have each been told an outcome, and with the lambs the query fails. -/
theorem query_partitions_ewesAndRams :
    (∃ result engine' told,
      (herdQuery.apply herdReport ewesAndRams).run idleEngine = (.ok result, engine') ∧
      result.length = 2 ∧ result = told.map Prod.snd ∧
      List.Forall₂ (Told saidOfHerd animalsOfHerd.1 ["animal"] animalOrError)
        (turns (joinRows herdReport () animalsOfHerd.1 (.object (outputsOf animalOrError)))
          ewesAndRams idleEngine) told) ∧
    ∃ fault, ((herdQuery.apply herdReport (ewesAndRams ++ [ofHerd "lambs"])).run idleEngine).1
      = .error fault := by
  have h : herdReport.ReportsOutcomes () ["animal"] saidOfHerd := ⟨"herd", _, fun _ => rfl⟩
  have hb : Binds ["animal"] animalOrError (.plain "list" "error") :=
    ⟨by decide, by decide, by decide, by decide⟩
  have hfresh : ∀ frame ∈ ewesAndRams ++ [ofHerd "lambs"], ∀ p ∈ animalOrError,
      frame.get? p.2 = none := by
    simp only [ewesAndRams, animalOrError, List.cons_append, List.nil_append, List.forall_mem_cons]
    exact ⟨⟨rfl, rfl, nofun⟩, ⟨rfl, rfl, nofun⟩, ⟨rfl, rfl, nofun⟩, nofun⟩
  constructor
  · have hrun : (herdQuery.apply herdReport ewesAndRams).run idleEngine = (.ok _, _) := rfl
    obtain ⟨told, htold, hresult, -⟩ := (query_partitions animalsOfHerd.1 h hb
      (fun frame hframe => hfresh frame (List.mem_append_left _ hframe)) idleEngine).1 _ _ hrun
    exact ⟨_, _, told, hrun, rfl, hresult, htold⟩
  · have hlacks : Lacks saidOfHerd animalsOfHerd.1 ["animal"] (ofHerd "lambs", idleEngine) :=
      ⟨.object [("herd", .str "lambs")], [], rfl, rfl, rfl, "animal", List.mem_cons_self, rfl⟩
    exact (query_partitions animalsOfHerd.1 h hb hfresh idleEngine).2
      ⟨_, List.mem_cons_of_mem _ (List.mem_cons_of_mem _ List.mem_cons_self), hlacks⟩

end Stage

end HerdBook
