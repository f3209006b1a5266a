import HerdBook.Proofs.Books
import HerdBook.Proofs.Queries

/-!
# What concepts live through

A concept has a life of its own in an engine: it is asked, by anybody and for anything, its store
is ordered to fail, and in the meantime the other concepts hand out ids from the numbers that all
of them share. `Concept.Lives` says that a concept has come to its state in this way, and that ids
have been handed out up to the given numbers.

Which calls a concept is asked is a parameter, `may`, since what can be said of a state may depend
on it.
-/

namespace HerdBook

/-- Where a history that has gone one step further is cut: at its last step, or before it. -/
theorem append_singleton_eq_append_cons_iff {α : Type} {xs before after : List α} {x y : α} :
    xs ++ [x] = before ++ y :: after ↔
      (xs = before ∧ x = y ∧ after = []) ∨
        ∃ rest, after = rest ++ [x] ∧ xs = before ++ y :: rest := by
  rcases List.eq_nil_or_concat after with rfl | ⟨rest, last, rfl⟩
  · constructor
    · intro h
      obtain ⟨rfl, hlast⟩ := List.append_inj' h rfl
      exact .inl ⟨rfl, (List.cons.inj hlast).1, rfl⟩
    · rintro (⟨rfl, rfl, -⟩ | ⟨rest, hnil, -⟩)
      · rfl
      · exact absurd hnil (by simp)
  · have hassoc : before ++ y :: (rest ++ [last]) = (before ++ y :: rest) ++ [last] := by simp
    rw [List.concat_eq_append, hassoc]
    constructor
    · intro h
      obtain ⟨rfl, hlast⟩ := List.append_inj' h rfl
      exact .inr ⟨rest, by rw [hlast], rfl⟩
    · rintro (⟨-, -, hnil⟩ | ⟨rest', hrest, rfl⟩)
      · exact absurd hnil (by simp)
      · obtain ⟨rfl, hlast⟩ := List.append_inj' hrest rfl
        rw [hlast]

namespace Concept

/-- The concept of the kind has come to this state by calls that it may be asked, by orders to fail
that its store was given, and while others handed out ids up to these numbers. -/
inductive Lives (may : String → Fields → Prop) (kind : Kind) (limit : Limit) :
    Concept → Issued → Prop
  | start (issued : Issued) : Lives may kind limit (.start kind limit) issued
  /-- An action or a query is called. -/
  | call {concept : Concept} {issued : Issued} {action : String} {args : Fields} {turn : Turn}
      (h : Lives may kind limit concept issued) (hm : may action args)
      (ht : concept.answer? action args issued = some turn) :
      Lives may kind limit turn.concept turn.issued
  /-- The store is ordered to fail at one of its next operations. -/
  | order {concept : Concept} {issued : Issued} (h : Lives may kind limit concept issued)
      (op : Operation) (n : Nat) :
      Lives may kind limit (concept.onDocuments (Store.failAt op n)) issued
  /-- Others hand out ids. -/
  | meanwhile {concept : Concept} {issued issued' : Issued}
      (h : Lives may kind limit concept issued) (hi : issued.documents ≤ issued'.documents) :
      Lives may kind limit concept issued'

/-- Any call may be asked. -/
def anyCall : String → Fields → Prop := fun _ _ => True

/-- The concept with other orders to fail for its store. -/
def ordered (orders : List (Operation × Nat)) (concept : Concept) : Concept :=
  concept.onDocuments fun store => { store with failing := orders }

variable {may may' : String → Fields → Prop} {kind : Kind} {limit : Limit} {concept : Concept}
  {issued : Issued}

/-- A concept keeps its kind when its documents change. -/
theorem kind_onDocuments (f : Store → Store) (concept : Concept) :
    (concept.onDocuments f).kind = concept.kind := by
  cases concept <;> rfl

/-- A concept keeps its kind all its life. -/
theorem Lives.kind_eq (h : Lives may kind limit concept issued) : concept.kind = kind := by
  induction h with
  | start => cases kind <;> rfl
  | call _ _ ht ih => rw [kind_of_answer? ht, ih]
  | order _ op n ih => rw [kind_onDocuments, ih]
  | meanwhile _ _ ih => exact ih

/-- Where more may be asked, a concept has lived as well. -/
theorem Lives.mono (hm : ∀ action args, may action args → may' action args)
    (h : Lives may kind limit concept issued) : Lives may' kind limit concept issued := by
  induction h with
  | start issued => exact .start issued
  | call _ hask ht ih => exact .call ih (hm _ _ hask) ht
  | order _ op n ih => exact .order ih op n
  | meanwhile _ hi ih => exact .meanwhile ih hi

/-- What a concept lives through has left what it keeps as its actions do. -/
theorem Lives.sound (h : Lives may kind limit concept issued) : concept.Sound := by
  induction h with
  | start => exact sound_start kind
  | call _ _ ht ih => exact ih.turn ht
  | @order concept _ _ op n ih =>
    cases concept with
    | requests state => trivial
    | accounts state => exact ⟨ih.users, ih.sessions⟩
    | herds store => exact ih
    | animals store => exact ih
  | meanwhile _ _ ih => exact ih

/-! ### Concepts that were asked a list of calls -/

/-- The concept after a call, with the numbers of ids handed out; a call that there is no action for
does nothing. -/
def ask (life : Concept × Issued) (call : String × Fields) : Concept × Issued :=
  match life.1.answer? call.1 call.2 life.2 with
  | some turn => (turn.concept, turn.issued)
  | none => life

/-- A concept of the kind that has just been started, after calls. -/
def asked (kind : Kind) (limit : Limit) (calls : List (String × Fields)) : Concept × Issued :=
  calls.foldl ask (start kind limit, Issued.none)

/-- A concept has lived through the calls that it was asked. -/
theorem lives_asked (kind : Kind) (limit : Limit) (calls : List (String × Fields))
    (hm : ∀ call ∈ calls, may call.1 call.2) :
    Lives may kind limit (asked kind limit calls).1 (asked kind limit calls).2 := by
  suffices h : ∀ life : Concept × Issued, Lives may kind limit life.1 life.2 →
      Lives may kind limit (calls.foldl ask life).1 (calls.foldl ask life).2 from
    h _ (.start Issued.none)
  induction calls with
  | nil => exact fun life h => h
  | cons call calls ih =>
    rw [List.forall_mem_cons] at hm
    refine fun life h => ih hm.2 _ ?_
    unfold ask
    split
    · next turn ht => exact h.call hm.1 ht
    · exact h

end Concept

end HerdBook
