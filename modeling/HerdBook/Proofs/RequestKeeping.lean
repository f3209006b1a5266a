import HerdBook.Proofs.Correspondence
import HerdBook.Proofs.Invocations

/-!
# The herd book keeps requests

Where all concepts are those of the herd book, each under its own name, the requests are those of
one concept, with the numbers that the world has handed out (`World.requests?`). Every concept
changes them by steps: its own actions are steps, and the others leave them alone. The lookups that
rules ask call concepts and write to the log, and do nothing else.

## Main results

* `World.keepsRequests`: the host of the herd book is one that keeps requests.
* `Rehearsal.isAtRest_ofBook`: an engine that is set up is at rest.
-/

namespace HerdBook

open Effect Requests

variable {ω κ α β : Type}

/-! ### Programs in parts -/

namespace Program.Minds

variable {memory : ω → Option Requests} {may : EngineCall κ → Prop} {world : ω}

/-- A program that goes on with an outcome. -/
theorem attemptThen {program : Program ω κ α} {next : Except Fault α → Program ω κ β}
    (h : program.Minds memory may world) {state : Requests} (hm : memory world = some state)
    (hn : ∀ outcome world' state, memory world' = some state →
      (next outcome).Minds memory may world') :
    (program.attemptThen next).Minds memory may world := by
  induction h generalizing state with
  | done outcome => exact hn outcome _ state hm
  | read _ ih => exact .read (ih hm)
  | write steps _ ih =>
    obtain ⟨after, -, hafter⟩ := steps state hm
    exact .write steps (ih hafter)
  | note _ ih => exact .note (ih hm)
  | request allowed _ ih =>
    exact .request allowed fun world' state reply hm' => ih world' state reply hm' hm'

/-- A program that goes on after a success. -/
theorem andThen {program : Program ω κ α} {next : α → Program ω κ β}
    (h : program.Minds memory may world) {state : Requests} (hm : memory world = some state)
    (hn : ∀ a world' state, memory world' = some state → (next a).Minds memory may world') :
    (program >>= next).Minds memory may world :=
  h.attemptThen hm fun outcome world' state hm' => by
    cases outcome with
    | ok a => exact hn a world' state hm'
    | error fault => exact .done _

/-- A program that goes on with something that is read of the world. -/
theorem reading {f : ω → α} {next : α → Program ω κ β}
    (h : (next (f world)).Minds memory may world) :
    (Program.reading f >>= next).Minds memory may world := .read h

/-- A program that goes on with what is there already. -/
theorem ofExcept_ok {a : α} {next : α → Program ω κ β} (h : (next a).Minds memory may world) :
    (Program.ofExcept (.ok a) >>= next).Minds memory may world := h

/-- A call that may be placed. -/
theorem ask {call : EngineCall κ} (hc : may call) :
    (Program.ask call : Program ω κ call.Answer).Minds memory may world :=
  .request hc fun _ _ reply _ => .done reply

/-- Lines that are written. -/
theorem notes (lines : List Note) :
    (Program.notes lines : Program ω κ Unit).Minds memory may world := by
  induction lines with
  | nil => exact .done _
  | cons n rest ih => exact .note ih

/-- Arguments that must not have certain names. -/
theorem requireFree (parameters : List String) (args : Fields) :
    (Program.requireFree parameters args : Program ω κ Unit).Minds memory may world := by
  unfold Program.requireFree
  split <;> exact .done _

end Program.Minds

/-! ### The requests of a world -/

/-- The concept is one of the herd book under its own name. -/
def Member.isAtHome : String × Member → Bool
  | (name, .book concept) => name == concept.kind.name
  | (_, .scripted _) => false

/-- What that means. -/
theorem Member.isAtHome_iff {entry : String × Member} :
    isAtHome entry = true ↔ ∃ concept : Concept, entry = (concept.kind.name, .book concept) := by
  obtain ⟨name, member⟩ := entry
  cases member with
  | book concept =>
    refine ⟨fun h => ⟨concept, by rw [beq_iff_eq.mp h]⟩, ?_⟩
    rintro ⟨_, ⟨⟩⟩
    exact beq_self_eq_true _
  | scripted => exact ⟨nofun, nofun⟩

namespace World

/-- The requests of a world with the concepts of the herd book. The numbers of requests and of those
who wait are those that the world has handed out. -/
def requests? (world : World) : Option Requests :=
  if world.members.all Member.isAtHome then
    match world.member? Rules.requesting with
    | some (.book (.requests state)) =>
      some { state with issued := world.issued.requests, tickets := world.issued.tickets }
    | _ => none
  else none

/-- The world has the concepts of the herd book, and that of the requests keeps these. -/
structure Keeps (kept : Requests) (world : World) : Prop where
  members : ∀ entry ∈ world.members, ∃ concept : Concept, entry = (concept.kind.name, .book concept)
  kept : world.member? Rules.requesting = some (.book (.requests kept))

variable {world : World} {state kept : Requests} {name action : String} {args : Fields}
  {concept : Concept} {turn : Concept.Turn}

/-- Then its requests are these. -/
theorem Keeps.requests?_eq (h : world.Keeps kept) : world.requests?
    = some { kept with issued := world.issued.requests, tickets := world.issued.tickets } := by
  have hall : world.members.all Member.isAtHome = true :=
    List.all_eq_true.mpr fun entry he => Member.isAtHome_iff.mpr (h.members entry he)
  rw [requests?, if_pos hall, h.kept]

/-- There are no other requests. -/
theorem exists_keeps (h : world.requests? = some state) : ∃ kept, world.Keeps kept := by
  unfold requests? at h
  split at h
  · next hall =>
    split at h
    · next kept hkept =>
      exact ⟨kept, fun entry he =>
        Member.isAtHome_iff.mp (List.all_eq_true.mp hall entry he), hkept⟩
    · cases h
  · cases h

namespace Keeps

/-- What the world holds under a name is the concept with this name. -/
theorem of_member? (h : world.Keeps kept) {member : Member}
    (hm : world.member? name = some member) :
    ∃ concept : Concept, name = concept.kind.name ∧ member = .book concept := by
  obtain ⟨concept, he⟩ := h.members _ (Table.mem_of_get? hm)
  obtain ⟨hname, hmember⟩ := Prod.mk.inj he
  exact ⟨concept, hname, hmember⟩

/-- What the world holds is not disturbed by numbers that are handed out. -/
theorem put (h : world.Keeps kept) (concept : Concept) (issued : Issued) {kept' : Requests}
    (hk : (if concept.kind.name = Rules.requesting then some (Member.book concept)
      else some (.book (.requests kept))) = some (.book (.requests kept'))) :
    (World.put concept.kind.name (.book concept) { world with issued := issued }).Keeps kept' where
  members entry he := by
    rcases Table.eq_or_mem_of_mem_set he with rfl | he
    · exact ⟨concept, rfl⟩
    · exact h.members entry he
  kept := by
    refine Eq.trans ?_ hk
    change Table.get? _ (Table.set _ _ world.members) = _
    rw [Table.get?_set, show Table.get? _ world.members = _ from h.kept]

/-- A turn of the concept of the requests is a turn of theirs. -/
theorem afterTurn_requests (h : world.Keeps kept) (act : Effect Requests Answer) :
    (world.afterTurn Rules.requesting (Concept.onRequests kept world.issued act)).requests?
      = some (act.run { kept with
          issued := world.issued.requests, tickets := world.issued.tickets }).2 := by
  have hafter := h.put (.requests (act.run { kept with
      issued := world.issued.requests, tickets := world.issued.tickets }).2)
    (Concept.onRequests kept world.issued act).issued (if_pos rfl)
  exact hafter.requests?_eq

/-- A turn of another concept leaves them alone. -/
theorem afterTurn_other (h : world.Keeps kept) (hk : concept.kind ≠ .requests)
    (ht : concept.answer? action args world.issued = some turn) :
    (world.afterTurn concept.kind.name turn).requests? = world.requests? := by
  have hkind : turn.concept.kind = concept.kind := Concept.kind_of_answer? ht
  have hname : turn.concept.kind.name ≠ Rules.requesting := fun he => by
    have hsame : turn.concept.kind.name = Concept.Kind.name .requests := he
    exact hk (hkind.symm.trans (Concept.Kind.name_inj.mp hsame))
  have hissued : turn.issued.requests = world.issued.requests ∧
      turn.issued.tickets = world.issued.tickets := by
    cases concept with
    | requests => exact absurd rfl hk
    | accounts | herds | animals =>
      obtain ⟨reading, -, rfl⟩ := Option.map_eq_some_iff.mp ht
      exact ⟨rfl, rfl⟩
  have hafter := h.put turn.concept turn.issued (if_neg hname)
  rw [hkind] at hafter
  rw [h.requests?_eq, ← hissued.1, ← hissued.2]
  exact hafter.requests?_eq

/-- After a turn of any concept the requests have taken steps. -/
theorem hands_afterTurn (h : world.Keeps kept) (hm : world.member? name = some (.book concept))
    (ht : concept.answer? action args world.issued = some turn) :
    Hands requests? world (world.afterTurn name turn) := by
  intro state hstate
  obtain ⟨_, rfl, hmember⟩ := h.of_member? hm
  obtain rfl := Member.book.inj hmember
  by_cases hk : concept.kind = .requests
  · cases concept with
    | accounts | herds | animals => cases hk
    | requests other =>
      obtain rfl : kept = other := by
        have hkept := h.kept.symm.trans hm
        exact Concept.requests.inj (Member.book.inj (Option.some.inj hkept))
      obtain ⟨reading, -, rfl⟩ := Option.map_eq_some_iff.mp ht
      rw [h.requests?_eq] at hstate
      obtain rfl := Option.some.inj hstate
      refine ⟨_, ?_, h.afterTurn_requests _⟩
      cases reading with
      | error fault => exact .refl _
      | ok action => exact .run action _
  · exact ⟨state, .refl state, (h.afterTurn_other hk ht).trans hstate⟩

end Keeps

/-- So they have when everybody who waits has turns. -/
theorem hands_onRequests (world : World) (turns : Nat) (timeLeft : TimeLeft) :
    Hands requests? world { world.onRequests (resume turns) with timeLeft := timeLeft } := by
  intro state hstate
  obtain ⟨kept, h⟩ := exists_keeps hstate
  have hafter : World.Keeps (resume turns kept)
      { world.onRequests (resume turns) with timeLeft := timeLeft } := by
    refine ⟨fun entry he => ?_, ?_⟩
    · obtain ⟨before, hb, rfl⟩ := List.mem_map.mp he
      obtain ⟨concept, rfl⟩ := h.members before hb
      cases concept with
      | requests state => exact ⟨.requests (resume turns state), rfl⟩
      | accounts state => exact ⟨.accounts state, rfl⟩
      | herds store => exact ⟨.herds store, rfl⟩
      | animals store => exact ⟨.animals store, rfl⟩
    · change Table.get? _ (world.members.map fun entry =>
        (entry.1, onMember (resume turns) entry.2)) = _
      rw [Table.get?_map_snd, show Table.get? _ world.members = _ from h.kept]
      rfl
  rw [h.requests?_eq] at hstate
  obtain rfl := Option.some.inj hstate
  exact ⟨_, (ComesFrom.refl _).play [.resume turns], hafter.requests?_eq⟩

/-- Waiting is a number of turns. -/
theorem hands_waiting (world : World) :
    Hands requests? world (World.waiting.before.run world).2 ∧
      Hands requests? world (World.waiting.after.run world).2 := by
  constructor
  · change Hands requests? world ((requireTime >>= fun _ => _ : Effect World Unit).run world).2
    rw [run_bind, run_requireTime]
    split
    · next h =>
      obtain ⟨-, rfl⟩ := Prod.mk.inj h
      exact hands_onRequests world 1 world.timeLeft.afterTurn
    · next h =>
      obtain ⟨-, rfl⟩ := Prod.mk.inj h
      exact .refl _ world
  · change Hands requests? world ((requireTime >>= fun _ => _ : Effect World Unit).run world).2
    rw [run_bind, run_requireTime]
    split
    · next h =>
      obtain ⟨-, rfl⟩ := Prod.mk.inj h
      exact (hands_onRequests world 1 world.timeLeft).trans
        (hands_onRequests world.turn 1 world.timeLeft)
    · next h =>
      obtain ⟨-, rfl⟩ := Prod.mk.inj h
      exact .refl _ world

/-! ### What concepts and lookups do -/

variable {may : EngineCall AdapterCode → Prop}

/-- A concept that performs an action changes the requests by steps. -/
theorem minds_performBook (hm : world.member? name = some (.book concept))
    (hs : world.requests? = some state) (action : String) (args : Fields) :
    (performBook name action args concept).Minds requests? may world := by
  obtain ⟨kept, hkeeps⟩ := exists_keeps hs
  unfold performBook
  refine .reading ?_
  split
  · exact .done _
  · next turn ht =>
    have hsteps := hkeeps.hands_afterTurn hm ht
    obtain ⟨after, -, hafter⟩ := hsteps state hs
    refine .read (.write hsteps (.andThen (.done _) hafter fun a _ _ hnoted => ?_))
    exact .andThen (.notes _) hnoted fun _ _ _ _ => .done _

/-- So does one that is called in whichever way. -/
theorem minds_performOf (hm : world.member? name = some (.book concept))
    (hs : world.requests? = some state) (action : String) (args : Value) :
    (performOf name action args (.book concept)).Minds requests? may world := by
  have hcall : ∀ action args,
      (callMember name action args (.book concept)).Minds requests? may world := by
    intro action args
    unfold callMember
    split
    · exact .done _
    · split
      · exact minds_performBook hm hs _ _
      · exact .done _
  change (performMember name action args (.book concept)).Minds requests? may world
  unfold performMember
  cases Target.resolve (fun own => ((Member.book concept).own? own).isSome) action args with
  | error fault => exact .done _
  | ok target =>
    cases target with
    | action action args =>
      refine .ofExcept_ok ((hcall action args).andThen hs fun v _ _ _ => ?_)
      split <;> exact .done _
    | lookUp action =>
      refine .ofExcept_ok ?_
      dsimp only
      split <;> exact .done _

/-- So does what is done with the concept under a name, when it does for each. -/
theorem minds_withMember {next : Member → ScriptProgram Value}
    (hs : world.requests? = some state)
    (hn : ∀ concept, world.member? name = some (.book concept) →
      (next (.book concept)).Minds requests? may world) :
    (withMember name next).Minds requests? may world := by
  obtain ⟨kept, hkeeps⟩ := exists_keeps hs
  refine .reading ?_
  split
  · exact .done _
  · next member hm =>
    obtain ⟨concept, -, rfl⟩ := hkeeps.of_member? hm
    exact (hn concept hm).attemptThen hs fun _ _ _ _ => .done _

/-- Whatever a concept is called by, it changes the requests by steps. -/
theorem minds_concept (hs : world.requests? = some state) (concept name : String) (args : Value) :
    (host.perform concept name args).Minds requests? may world ∧
      (host.query concept name args).Minds requests? may world := by
  refine ⟨minds_withMember hs fun _ hm => minds_performOf hm hs name args,
    minds_withMember hs fun c hm => ?_⟩
  change Program.Minds _ _ world (if name.startsWith "_" then performOf concept name args (.book c)
    else Program.fail Target.impureQuery : ScriptProgram Value)
  split
  · exact minds_performOf hm hs name args
  · exact .done _

section Lookups

variable {named : String → Prop} {fits : Rule AdapterCode → Prop}

/-- Making rows of what a concept answers calls none. -/
theorem minds_rowsOfAnswer (hs : world.requests? = some state) (name : String)
    (fields : List String) (answer : Value) :
    (Lookup.rowsOfAnswer name fields answer : ScriptProgram Value).Minds requests?
      (EngineCall.Observes named fits) world := by
  unfold Lookup.rowsOfAnswer
  refine .andThen (.done _) hs fun outcome _ _ hs => ?_
  split
  · exact .andThen (.notes _) hs fun _ _ _ hs => .andThen (.done _) hs fun _ _ _ _ => .done _
  · exact .andThen (.done _) hs fun _ _ _ _ => .done _

/-- Asking a concept calls it at most. -/
theorem minds_askConcept (hs : world.requests? = some state) (concept action : String)
    (fields : List String) (args : Fields) :
    (Lookup.askConcept concept action fields args : ScriptProgram Value).Minds requests?
      (EngineCall.Observes named fits) world := by
  unfold Lookup.askConcept
  split
  · exact .andThen (.andThen (.requireFree _ _) hs fun _ _ _ _ => .ask trivial) hs
      fun _ _ _ hs => minds_rowsOfAnswer hs _ _ _
  · exact .andThen (.andThen (.requireFree _ _) hs fun _ _ _ _ => .ask trivial) hs
      fun _ _ _ hs => minds_rowsOfAnswer hs _ _ _

/-- A lookup calls a concept at most. -/
theorem minds_lookup (hs : world.requests? = some state) (question : Lookup) (args : Value) :
    (question.program args : ScriptProgram Value).Minds requests? (EngineCall.Observes named fits)
      world := by
  unfold Lookup.program
  split
  · exact minds_askConcept hs _ _ _ _
  · exact .done _
  · split
    · exact minds_askConcept hs _ _ _ _
    · exact .andThen (.notes _) hs fun _ _ _ hs => .andThen (.done _) hs fun _ _ _ _ => .done _
  · exact .done _

end Lookups

end World

/-- Who has waited ends with fields. -/
theorem Requests.exists_fields_of_outcomeOf {ticket : Nat} {state : Requests} {a : Answer}
    (h : outcomeOf ticket state = .ok a) : ∃ out, a.value = .object out := by
  unfold outcomeOf at h
  split at h
  · cases h
  · unfold outcome at h
    split at h
    · exact Except.ok.inj h ▸ ⟨_, rfl⟩
    · obtain ⟨name, -, h⟩ := bind_eq_ok_iff.mp h
      obtain ⟨seconds, -, h⟩ := bind_eq_ok_iff.mp h
      exact Except.ok.inj h ▸ ⟨_, rfl⟩
    · cases h
    · cases h

/-- Every action on the requests answers with fields. -/
theorem RequestAction.upholds_run (action : RequestAction) :
    Upholds (fun _ : Requests => True) action.run fun a => ∃ out, a.value = .object out := by
  have hrefusal : ∀ (v : Value) (words : String → String), Upholds (fun _ : Requests => True)
      (textOf v >>= fun name => pure (Answer.refusal (words name)))
      fun a => ∃ out, a.value = .object out :=
    fun _ _ => .bind (.ofExcept fun _ _ => trivial) fun _ (_ : True) => .pure ⟨_, rfl⟩
  cases action with
  | request fields =>
    exact .bind .get fun _ _ => .bind (.modify fun _ _ => trivial) fun _ _ => .bind .get fun _ _ =>
      .bind (.ofExcept fun _ _ => trivial) fun _ (_ : True) =>
        .bind (.modify fun _ _ => trivial) fun _ _ => .pure ⟨_, rfl⟩
  | respond request body =>
    refine .bind (.ofExcept fun _ _ => trivial) fun key (_ : True) => .bind .get fun state _ => ?_
    split
    · exact hrefusal request _
    · split
      · exact .pure ⟨_, rfl⟩
      · exact .bind (Q := fun _ => True) (fun _ _ => ⟨trivial, fun _ _ => trivial⟩)
          fun _ _ => .pure ⟨_, rfl⟩
  | fields request =>
    refine .bind (.ofExcept fun _ _ => trivial) fun key (_ : True) => .bind .get fun state _ => ?_
    split
    · exact hrefusal request _
    · exact .pure ⟨_, rfl⟩
  | response request =>
    refine .bind .get fun state _ => .bind (.ofExcept fun _ _ => trivial) fun found (_ : True) => ?_
    cases found with
    | none => exact hrefusal request _
    | some body => exact .pure ⟨_, rfl⟩
  | await request timeout =>
    exact .bind (Q := fun _ => True) (fun _ _ => ⟨trivial, fun _ _ => trivial⟩) fun w _ =>
      .bind (.modify fun _ _ => trivial) fun _ _ => .bind .get fun state _ =>
        .ofExcept fun _ => exists_fields_of_outcomeOf

/-- Their actions have names of their own. -/
theorem RequestAction.isOwn_of_ofCall? {name : String} {args : Fields}
    {reading : Except Fault RequestAction} (h : ofCall? name args = some reading) :
    Target.IsOwn name := by
  unfold ofCall? at h
  split at h
  all_goals first | exact ⟨by decide, by decide +kernel⟩ | cases h

namespace World

/-- On a world with requests, an action on them is carried out by their concept. -/
theorem run_performOf_requests
    {answer : (call : EngineCall AdapterCode) → Effect Rehearsal call.Answer} {engine : Rehearsal}
    {state : Requests} (hm : engine.world.requests? = some state) {name : String}
    {args : Fields} {reading : Except Fault RequestAction}
    (hr : RequestAction.ofCall? name args = some reading) :
    let acted := (Effect.ofExcept reading >>= RequestAction.run).run state
    let performed := ((withMember Rules.requesting
      (performOf Rules.requesting name (.object args))).run answer).run engine
    (∀ a, acted.1 = .ok a → performed.1 = .ok a.value) ∧
      performed.2.world.requests? = some acted.2 := by
  obtain ⟨kept, h⟩ := exists_keeps hm
  obtain rfl := Option.some.inj (h.requests?_eq.symm.trans hm)
  have ht : (Concept.requests kept).answer? name args engine.world.issued
      = some (Concept.onRequests kept engine.world.issued
        (Effect.ofExcept reading >>= RequestAction.run)) := by
    rw [Concept.answer?, hr]
    rfl
  have hfields : Concept.Turn.AnswersFields (Concept.onRequests kept engine.world.issued
      (Effect.ofExcept reading >>= RequestAction.run)) := by
    have hacts : Upholds (fun _ : Requests => True) (Effect.ofExcept reading >>= RequestAction.run)
        fun a => ∃ out, a.value = .object out :=
      .bind (Q := fun _ => True) (.ofExcept fun _ _ => trivial) fun action _ => action.upholds_run
    exact (hacts _ trivial).2
  intro acted performed
  obtain ⟨journal, hperformed⟩ : ∃ journal, performed = (Concept.Turn.reply _,
      { engine with world := engine.world.afterTurn Rules.requesting _, journal := journal }) :=
    run_performOf h.kept ht (RequestAction.isOwn_of_ofCall? hr) hfields
  rw [hperformed]
  refine ⟨fun a ha => ?_, h.afterTurn_requests _⟩
  have hturn : (Concept.onRequests kept engine.world.issued
      (Effect.ofExcept reading >>= RequestAction.run)).outcome = .ok a := ha
  dsimp only
  rw [Concept.Turn.reply, hturn]
  rfl

/-- The host of the herd book is one that keeps requests. -/
theorem keepsRequests (named : String → Prop) :
    host.KeepsRequests requests? (fun adapter => ∃ question, adapter = .lookup question) named where
  registered hm := by
    obtain ⟨kept, h⟩ := exists_keeps hm
    exact Option.isSome_iff_exists.mpr ⟨_, h.kept⟩
  performs hr _ _ _ hm := run_performOf_requests hm hr
  queries {name args _} hpure hr answer engine state hm := by
    obtain ⟨kept, h⟩ := exists_keeps hm
    have hsame : ((host.query Rules.requesting name (.object args)).run answer).run engine
        = ((withMember Rules.requesting
            (performOf Rules.requesting name (.object args))).run answer).run engine := by
      rw [run_withMember h.kept]
      refine (run_withMember h.kept _).trans ?_
      change ((Program.leaving (if name.startsWith "_" then performOf Rules.requesting name
        (.object args) (.book (.requests kept)) else Program.fail Target.impureQuery)).run
          answer).run engine = _
      rw [if_pos hpure]
    rw [hsame]
    exact run_performOf_requests hm hr
  concepts concept name args _ _ hm := minds_concept hm concept name args
  adapters := by
    rintro _ ⟨question, rfl⟩ args world state hm
    exact minds_lookup hm question args
  waits := hands_waiting

end World

end HerdBook
