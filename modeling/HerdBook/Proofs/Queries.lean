import HerdBook.Proofs.Answers
import Mathlib.Tactic.Choose

/-!
# Queries

A query of the herds or of the animals reads the documents and changes none. What it answers is a
function of the documents, unless an order makes the store fail; so a query that is asked twice
answers the same, where it answers at all.

## Main results

* `Concept.exists_asks`: the queries that routes ask are functions of the documents.
* `Concept.exists_turns_of_query`: two turns of the same query, one after the other.
-/

namespace HerdBook

open Effect

/-- What a store keeps under ids. -/
abbrev Documents := List (String × Fields)

namespace Store

variable {α β : Type} {act : Effect Store α} {f : Documents → Except Fault α}

/-- The computation changes no document, and its outcome is that function of the documents unless
an order makes the store fail. -/
def Asks (act : Effect Store α) (f : Documents → Except Fault α) : Prop :=
  ∀ store, ∃ failing, (act.run store).2 = { store with failing := failing } ∧
    ((act.run store).1 = f store.docs ∨ (act.run store).1 = .error writeFailed) ∧
    (store.failing = [] → failing = [] ∧ (act.run store).1 = f store.docs)

/-- The computation asks for some function of the documents. -/
def IsQuery (act : Effect Store α) : Prop := ∃ f, Asks act f

namespace IsQuery

/-- What is known from the start. -/
theorem ofExcept (outcome : Except Fault α) : IsQuery (Effect.ofExcept outcome) :=
  ⟨fun _ => outcome, fun store => ⟨store.failing, rfl, .inl rfl, fun h => ⟨h, rfl⟩⟩⟩

/-- A result. -/
theorem pure (a : α) : IsQuery (Pure.pure a) := ofExcept (.ok a)

/-- A sequence. -/
theorem bind {next : α → Effect Store β} (h : IsQuery act) (hn : ∀ a, IsQuery (next a)) :
    IsQuery (act >>= next) := by
  obtain ⟨f, hf⟩ := h
  choose g hg using hn
  refine ⟨fun docs => f docs >>= fun a => g a docs, fun store => ?_⟩
  obtain ⟨failing, hrun, hout, hfree⟩ := hf store
  rcases hs : act.run store with ⟨fault | a, t⟩
  · rw [hs] at hrun hout hfree
    have hfault : Except.error fault = f store.docs →
        (.error fault : Except Fault β) = f store.docs >>= fun a => g a store.docs :=
      fun h => by rw [← h]; rfl
    rw [run_bind_error hs]
    refine ⟨failing, hrun, ?_, fun h => ⟨(hfree h).1, hfault (hfree h).2⟩⟩
    rcases hout with h | h
    · exact .inl (hfault h)
    · obtain rfl := Except.error.inj h
      exact .inr rfl
  · rw [hs] at hrun hout hfree
    obtain rfl : t = _ := hrun
    obtain ⟨failing', hrun', hout', hfree'⟩ := hg a { store with failing := failing }
    have hval : f store.docs = .ok a := by
      rcases hout with h | h
      · exact h.symm
      · exact nomatch h
    have hbind : (f store.docs >>= fun a => g a store.docs) = g a store.docs := by rw [hval]; rfl
    rw [run_bind_ok hs]
    dsimp only
    rw [hbind]
    exact ⟨failing', hrun', hout', fun h => hfree' (hfree h).1⟩

/-- A call of an operation. -/
theorem enter (op : Operation) : IsQuery (Store.enter op) := by
  refine ⟨fun _ => .ok (), fun store => ?_⟩
  unfold Store.enter
  rw [run_ofStep]
  split
  · next n horder =>
    refine ⟨Table.set op n store.failing, rfl, ?_, fun h => ?_⟩
    · split
      · exact .inr rfl
      · exact .inl rfl
    · rw [h] at horder
      exact nomatch horder
  · exact ⟨store.failing, rfl, .inl rfl, fun h => ⟨h, rfl⟩⟩

/-- Looking for all documents that satisfy criteria. -/
theorem find (criteria : Fields) : IsQuery (Store.find criteria) := by
  refine (enter .find).bind fun _ => ?_
  exact ⟨fun docs => .ok ((docs.map (·.2)).filter (satisfies criteria)),
    fun store => ⟨store.failing, rfl, .inl rfl, fun h => ⟨h, rfl⟩⟩⟩

/-- Looking for the first one. -/
theorem findOne (criteria : Fields) : IsQuery (Store.findOne criteria) :=
  (enter .findOne).bind fun _ => (find criteria).bind fun _ => pure _

/-- A text in an answer. -/
theorem textOf (v : Value) : IsQuery (HerdBook.textOf v) := ofExcept _

end IsQuery

end Store

/-! ### The queries of the concepts -/

open Store

/-- The action is a query that routes ask. -/
def HerdAction.IsQuery : HerdAction → Prop
  | .members .. | .listActive _ | .listArchived _ => True
  | _ => False

/-- Such a query is a function of the documents. -/
theorem HerdAction.IsQuery.run {action : HerdAction} (h : action.IsQuery) :
    Store.IsQuery action.run := by
  cases action with
  | members user herdName =>
    refine (Store.IsQuery.findOne _).bind fun found => ?_
    cases found with
    | none =>
      exact (Store.IsQuery.textOf _).bind fun _ => (Store.IsQuery.textOf _).bind fun _ => .pure _
    | some herd => exact .pure _
  | listActive user => exact (Store.IsQuery.find _).bind fun _ => .pure _
  | listArchived user => exact (Store.IsQuery.find _).bind fun _ => .pure _
  | _ => exact h.elim

/-- The action is a query that routes ask. -/
def AnimalAction.IsQuery : AnimalAction → Prop
  | .present .. | .presentAll _ => True
  | _ => False

/-- Such a query is a function of the documents. -/
theorem AnimalAction.IsQuery.run {action : AnimalAction} (h : action.IsQuery) :
    Store.IsQuery action.run := by
  cases action with
  | present user id =>
    refine (Store.IsQuery.findOne _).bind fun found => ?_
    cases found with
    | none =>
      exact (Store.IsQuery.textOf _).bind fun _ => (Store.IsQuery.textOf _).bind fun _ => .pure _
    | some doc => exact .pure _
  | presentAll user => exact (Store.IsQuery.find _).bind fun _ => .pure _
  | _ => exact h.elim

/-- Reading a call and asking what is read is a query when whatever is read is one. -/
theorem Store.IsQuery.reading {γ : Type} {reading : Except Fault γ} {act : γ → Effect Store Answer}
    (h : ∀ action, reading = .ok action → Store.IsQuery (act action)) :
    Store.IsQuery (Effect.ofExcept reading >>= act) := by
  cases reading with
  | ok action => exact h action rfl
  | error fault =>
    exact ⟨fun _ => .error fault, fun store => ⟨store.failing, rfl, .inl rfl, fun h => ⟨h, rfl⟩⟩⟩

namespace Concept

/-- The queries of a kind of concept that routes ask. -/
def Kind.queries : Kind → List String
  | .herds => ["_viewComposition", "_listActiveHerds", "_listArchivedHerds"]
  | .animals => ["_getAnimal", "_getAllAnimals"]
  | _ => []

/-- What the concept keeps under ids. -/
def documents : Concept → Documents
  | .requests _ => []
  | .accounts state => state.users.docs
  | .herds store => store.docs
  | .animals store => store.docs

/-- The orders to fail that its store has. -/
def orders : Concept → List (Operation × Nat)
  | .requests _ => []
  | .accounts state => state.users.failing
  | .herds store => store.failing
  | .animals store => store.failing

/-- What a query answers is a function of the documents, unless an order makes the store fail, and it
changes none. -/
structure Asks (f : Documents → Except Fault Answer) (concept : Concept) (issued : Issued)
    (turn : Turn) : Prop where
  issued : turn.issued = issued
  documents : turn.concept.documents = concept.documents
  outcome : turn.outcome = f concept.documents ∨ turn.outcome = .error Store.writeFailed
  free : concept.orders = [] →
    turn.concept.unnumbered = concept.unnumbered ∧ turn.outcome = f concept.documents

/-- A query of a concept that keeps nothing but a store. -/
theorem asks_onStore {make : Store → Concept} {act : Effect Store Answer}
    {f : Documents → Except Fault Answer} (hf : Store.Asks act f)
    (hdocs : ∀ store, (make store).documents = store.docs)
    (horders : ∀ store, (make store).orders = store.failing)
    (hissued : ∀ store n, (make { store with issued := n }).unnumbered = (make store).unnumbered)
    (store : Store) (issued : Issued) :
    Asks f (make store) issued (onStore make store issued act) := by
  obtain ⟨failing, hrun, hout, hfree⟩ := hf { store with issued := issued.documents }
  have hturn : onStore make store issued act
      = ⟨(act.run { store with issued := issued.documents }).1,
        make (act.run { store with issued := issued.documents }).2,
        { issued with documents := (act.run { store with issued := issued.documents }).2.issued
          }⟩ :=
    rfl
  rw [hturn, hrun]
  refine ⟨rfl, ?_, ?_, fun hnone => ?_⟩
  · rw [hdocs, hdocs]
  · rw [hdocs]
    exact hout
  · rw [horders] at hnone
    obtain ⟨rfl, hval⟩ := hfree hnone
    refine ⟨?_, by rw [hdocs]; exact hval⟩
    have hsame : ({ store with issued := issued.documents, failing := [] } : Store)
        = { store with issued := issued.documents } := by rw [← hnone]
    dsimp only
    rw [hsame]
    exact hissued store issued.documents

/-- The queries that routes ask. -/
theorem exists_asks {kind : Kind} {name : String} (h : name ∈ kind.queries) (args : Fields) :
    ∃ f, ∀ (concept : Concept) (issued : Issued), concept.kind = kind →
      ∃ turn, concept.answer? name args issued = some turn ∧ Asks f concept issued turn := by
  cases kind with
  | requests | accounts => exact absurd h List.not_mem_nil
  | herds =>
    obtain ⟨reading, hr, hreading⟩ : ∃ reading, HerdAction.ofCall? name args = some reading ∧
        Arguments.IsReading reading HerdAction.IsQuery := by
      simp only [Kind.queries, List.mem_cons, List.not_mem_nil, or_false] at h
      rcases h with rfl | rfl | rfl
      · exact ⟨_, rfl, .exactly (.required fun _ _ => .required fun _ _ => .pure trivial)⟩
      · exact ⟨_, rfl, .exactly (.required fun _ _ => .pure trivial)⟩
      · exact ⟨_, rfl, .exactly (.required fun _ _ => .pure trivial)⟩
    obtain ⟨f, hf⟩ := Store.IsQuery.reading fun action ha => (hreading.1 action ha).run
    refine ⟨f, fun concept issued hkind => ?_⟩
    cases concept with
    | herds store =>
      exact ⟨_, by rw [answer?, hr]; rfl,
        asks_onStore hf (fun _ => rfl) (fun _ => rfl) (fun _ _ => rfl) store issued⟩
    | _ => cases hkind
  | animals =>
    obtain ⟨reading, hr, hreading⟩ : ∃ reading, AnimalAction.ofCall? name args = some reading ∧
        Arguments.IsReading reading AnimalAction.IsQuery := by
      simp only [Kind.queries, List.mem_cons, List.not_mem_nil, or_false] at h
      rcases h with rfl | rfl
      · exact ⟨_, rfl, .exactly (.required fun _ _ => .required fun _ _ => .pure trivial)⟩
      · exact ⟨_, rfl, .exactly (.required fun _ _ => .pure trivial)⟩
    obtain ⟨f, hf⟩ := Store.IsQuery.reading fun action ha => (hreading.1 action ha).run
    refine ⟨f, fun concept issued hkind => ?_⟩
    cases concept with
    | animals store =>
      exact ⟨_, by rw [answer?, hr]; rfl,
        asks_onStore hf (fun _ => rfl) (fun _ => rfl) (fun _ _ => rfl) store issued⟩
    | _ => cases hkind

/-- Concepts that are the same but for the numbers of ids have the same orders to fail. -/
theorem orders_unnumbered (concept : Concept) : concept.unnumbered.orders = concept.orders := by
  cases concept <;> rfl

/-- A query that is asked twice answers the same, where it answers at all. While no order makes the
store fail, it ends in the same way both times and leaves the concept as it is. -/
theorem exists_turns_of_query {kind : Kind} {name : String} (h : name ∈ kind.queries)
    {concept : Concept} (hk : concept.kind = kind) (args : Fields) (issued : Issued) :
    ∃ turn second, concept.answer? name args issued = some turn ∧
      turn.concept.answer? name args turn.issued = some second ∧
      (∀ a b, turn.outcome = .ok a → second.outcome = .ok b → a = b) ∧
      (concept.orders = [] → turn.concept.unnumbered = concept.unnumbered ∧
        second.concept.unnumbered = concept.unnumbered ∧ second.outcome = turn.outcome) := by
  obtain ⟨f, hf⟩ := exists_asks h args
  obtain ⟨turn, hturn, hasks⟩ := hf concept issued hk
  obtain ⟨second, hsecond, hasks'⟩ := hf turn.concept turn.issued
    ((kind_of_answer? hturn).trans hk)
  refine ⟨turn, second, hturn, hsecond, fun a b ha hb => ?_, fun horders => ?_⟩
  · have hof : turn.outcome = f concept.documents := hasks.outcome.resolve_right (by simp [ha])
    have hof' : second.outcome = f turn.concept.documents :=
      hasks'.outcome.resolve_right (by simp [hb])
    rw [hasks.documents, ← hof, ha] at hof'
    exact Except.ok.inj (hof'.symm.trans hb)
  · obtain ⟨hsame, hout⟩ := hasks.free horders
    obtain ⟨hsame', hout'⟩ := hasks'.free (by
      rw [← orders_unnumbered, hsame, orders_unnumbered, horders])
    exact ⟨hsame, hsame'.trans hsame, by rw [hout, hout', hasks.documents]⟩

end Concept

end HerdBook
