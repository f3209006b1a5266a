import HerdBook.Proofs.Atomicity
import HerdBook.Store.Program

/-!
# What transactions in transactions take back

A program on a store writes, reads, raises faults and catches them, in transactions that may stand
in each other to any depth. What it has written, in order, is told by what its steps answered
(`StoreStep.written`); which transactions the writes stood in, and which of these a fault has left,
is a tree (`Deed`). The documents afterwards are those that come of the writes that stand in no
transaction that a fault has left (`Deed.keptAll`), made one after the other on the documents from
before: so a transaction takes back what was written in it, also what transactions in it had kept,
and nothing else.

The induction follows the program. A step that writes makes the change that its answer tells
(`Effect.Records`), and a transaction that a fault leaves has the documents of its beginning,
whatever was done to them meanwhile.

## Main results

* `StoreStep.docs_runAll`: the documents after a program.
* `StoreStep.rolls_back_exactly`: this and what it means for a transaction whose fault is caught in
  another one, for one that a fault leaves, and for a fault that is caught outside of any.
-/

namespace HerdBook

open Effect

/-- A change of the documents of a store. -/
inductive StoreWrite where
  /-- A document is put under an id. -/
  | put (id : String) (doc : Fields)
  /-- Fields of the document with the id are set. -/
  | change (id : String) (changes : Fields)
  /-- The document with the id is removed. -/
  | erase (id : String)

namespace StoreWrite

/-- The documents with the change made. -/
def apply (docs : List (String × Fields)) : StoreWrite → List (String × Fields)
  | .put id doc => Table.set id (Table.set "_id" (.str id) doc) docs
  | .change id changes =>
    match Table.get? id docs with
    | some doc => Table.set id (Table.merge doc changes) docs
    | none => docs
  | .erase id => Table.erase id docs

/-- The documents with several changes made, one after the other. -/
def replay (writes : List StoreWrite) (docs : List (String × Fields)) : List (String × Fields) :=
  writes.foldl apply docs

/-- The changes of two parts. -/
theorem replay_append (writes more : List StoreWrite) (docs : List (String × Fields)) :
    replay (writes ++ more) docs = replay more (replay writes docs) :=
  List.foldl_append

end StoreWrite

open StoreWrite

/-- What a program has done: its writes, and the transactions that some of them stand in. -/
inductive Deed where
  | write (w : StoreWrite)
  /-- What was done in a transaction, and whether a fault has left it. -/
  | scope (deeds : List Deed) (escaped : Bool)

namespace Deed

mutual

/-- The writes of a deed without those in transactions that a fault has left. -/
def kept : Deed → List StoreWrite
  | .write w => [w]
  | .scope deeds escaped => if escaped then [] else keptAll deeds

/-- The writes of several deeds without those in transactions that a fault has left. -/
def keptAll : List Deed → List StoreWrite
  | [] => []
  | deed :: rest => kept deed ++ keptAll rest

end

/-- The writes of two parts. -/
theorem keptAll_append (deeds more : List Deed) :
    keptAll (deeds ++ more) = keptAll deeds ++ keptAll more := by
  induction deeds with
  | nil => rfl
  | cons deed rest ih => rw [List.cons_append, keptAll, keptAll, ih, List.append_assoc]

/-- Writes outside of transactions are all kept. -/
theorem keptAll_map_write (writes : List StoreWrite) : keptAll (writes.map write) = writes := by
  induction writes with
  | nil => rfl
  | cons w rest ih => rw [List.map_cons, keptAll, kept, ih, List.singleton_append]

end Deed

open Deed

/-! ### What the steps have written -/

namespace StoreStep

/-- What a step has written, as its outcome tells: an insertion that answered with an id, an update
and a deletion that answered that there was a document. -/
def written : StoreStep → Except Fault StoreReply → List StoreWrite
  | .insert (.object doc), .ok (.value (.str id)) => [.put id doc]
  | .update (.str id) (.object changes), .ok (.value (.bool true)) => [.change id changes]
  | .delete (.str id), .ok (.value (.bool true)) => [.erase id]
  | _, _ => []

mutual

/-- What a step has done when it was run on the store. -/
def deeds : StoreStep → Store → List Deed
  | .scope steps, store =>
    match (Store.enter .transaction).run store with
    | (.error _, _) => []
    | (.ok _, entered) =>
      [.scope (deedsAll steps entered) (((runAll steps).run entered).1 matches .error _)]
  | .guarded steps, store => deedsAll steps store
  | step, store => (written step ((run step).run store).1).map .write

/-- What the steps have done, up to the first one that ended in a fault. -/
def deedsAll : List StoreStep → Store → List Deed
  | [], _ => []
  | step :: rest, store =>
    deeds step store ++
      match (run step).run store with
      | (.ok _, next) => deedsAll rest next
      | (.error _, _) => []

end

end StoreStep

/-! ### Steps that write -/

namespace Effect

variable {α β : Type} {act : Effect Store α} {next : α → Effect Store β}
  {told : Except Fault α → List StoreWrite} {told' : Except Fault β → List StoreWrite}

/-- The computation changes the documents as its outcome tells. -/
def Records (act : Effect Store α) (told : Except Fault α → List StoreWrite) : Prop :=
  ∀ store, (act.run store).2.docs = replay (told (act.run store).1) store.docs

/-- What changes no document has nothing to tell. -/
theorem Records.of_retains (h : Moves (Retains Store.docs) act) : Records act fun _ => [] :=
  h

/-- A computation that changes no document may come before. -/
theorem Records.after (h : Moves (Retains Store.docs) act)
    (hn : ∀ store a t, act.run store = (.ok a, t) → Records (next a) told')
    (herror : ∀ fault, told' (.error fault) = []) : Records (act >>= next) told' := by
  intro store
  have hs : (act.run store).2.docs = store.docs := h store
  rw [run_bind]
  rcases hrun : act.run store with ⟨fault | a, t⟩ <;> rw [hrun] at hs
  · rw [herror]
    exact hs
  · rw [← hs]
    exact hn store a t hrun t

/-- What is made of the result tells the same. -/
theorem Records.map {f : α → β} (h : Records act told)
    (hok : ∀ a, told' (.ok (f a)) = told (.ok a))
    (herror : ∀ fault, told' (.error fault) = told (.error fault)) :
    Records (act >>= fun a => pure (f a)) told' := by
  intro store
  have hs := h store
  rw [run_bind]
  rcases hrun : act.run store with ⟨fault | a, t⟩ <;> rw [hrun] at hs
  · rw [herror]
    exact hs
  · show t.docs = replay (told' (.ok (f a))) store.docs
    rw [hok]
    exact hs

end Effect

namespace Store

/-- A copy has the same fields. -/
theorem eq_of_copy {fields copied : Fields} (h : copy fields = .ok copied) : fields = copied := by
  unfold copy at h
  split at h
  · exact Except.ok.inj h
  · cases h

/-- An insertion puts the document under the id that it answers with. -/
theorem records_insert (doc : Fields) : Records (insert doc) fun
    | .ok id => [.put id doc]
    | .error _ => [] := by
  refine .after (retains_enter .insert) (fun _ _ _ _ => ?_) fun _ => rfl
  refine .after (fun _ => rfl) (fun _ id _ _ => ?_) fun _ => rfl
  refine .after (.ofExcept _) (fun _ copied _ hcopied => ?_) fun _ => rfl
  obtain rfl := eq_of_copy (congrArg Prod.fst hcopied)
  exact fun _ => rfl

/-- An update sets the fields of the document with the id, if it answers that there is one. -/
theorem records_update (id : String) (changes : Fields) : Records (update id changes) fun
    | .ok true => [.change id changes]
    | _ => [] := by
  refine .after (retains_enter .update) (fun _ _ _ _ store => ?_) fun _ => rfl
  rw [run_bind_ok (run_get store)]
  cases hdoc : Table.get? id store.docs with
  | none => rfl
  | some doc =>
    dsimp only
    cases hcopy : copy changes with
    | error fault => rfl
    | ok copied =>
      obtain rfl := eq_of_copy hcopy
      show Table.set id (Table.merge doc changes) store.docs = apply store.docs (.change id changes)
      rw [apply, hdoc]

/-- A deletion removes the document with the id, if it answers that there was one. -/
theorem records_delete (id : String) : Records (delete id) fun
    | .ok true => [.erase id]
    | _ => [] := by
  refine .after (retains_enter .delete) (fun _ _ _ _ store => ?_) fun _ => rfl
  rw [run_bind_ok (run_get store)]
  cases hfound : Table.has id store.docs with
  | true => rfl
  | false => exact Table.erase_of_get?_eq_none (by simpa [Table.has] using hfound)

end Store

namespace StoreStep

/-- A fault tells of no write. -/
theorem written_error (step : StoreStep) (fault : Fault) : written step (.error fault) = [] := by
  unfold written
  split
  all_goals first | rfl | contradiction

/-- Arguments that are taken are the fields of an object. -/
theorem eq_object_of_namedArguments {reserved : List String} {v : Value} {fields : Fields}
    (h : namedArguments reserved v = .ok fields) : v = .object fields := by
  unfold namedArguments at h
  split at h
  · split at h
    · cases h
    · exact congrArg Value.object (Except.ok.inj h)
  · cases h

/-- An id is a text. -/
theorem eq_str_of_asKey {v : Value} {id : String} (h : asKey v = .ok (some id)) : v = .str id := by
  unfold asKey at h
  split at h
  · exact congrArg Value.str (Option.some.inj (Except.ok.inj h))
  · split at h
    · cases Except.ok.inj h
    · cases h

/-- A step that inserts has written what its answer tells. -/
theorem records_run_insert (doc : Value) : Records (run (.insert doc)) (written (.insert doc)) := by
  cases doc with
  | object fields => exact (Store.records_insert fields).map (fun _ => rfl) fun _ => rfl
  | _ =>
    exact .of_retains (.bind (Store.retains_enter .insert) fun _ =>
      .bind (fun _ => rfl) fun _ => .throw _)

/-- So has a step that updates. -/
theorem records_run_update (id changes : Value) :
    Records (run (.update id changes)) (written (.update id changes)) := by
  refine .after (.ofExcept _) (fun _ fields _ hfields => ?_) (written_error _)
  refine .after (.ofExcept _) (fun _ key _ hkey => ?_) (written_error _)
  obtain rfl := eq_object_of_namedArguments (congrArg Prod.fst hfields)
  cases key with
  | none =>
    refine fun store => ?_
    show store.docs = replay (written (.update id (.object fields)) (.ok (.value (.bool false)))) _
    cases id <;> rfl
  | some text =>
    obtain rfl := eq_str_of_asKey (congrArg Prod.fst hkey)
    exact (Store.records_update text fields).map (fun found => by cases found <;> rfl) fun _ => rfl

/-- What deletes by a key has written what its answer tells. -/
theorem records_delete_key {id : Value} {key : Option String}
    (h : ∀ text, key = some text → id = .str text) :
    Records (match key with
      | some text => do return .value (.bool (← Store.delete text))
      | none => return .value (.bool false)) (written (.delete id)) := by
  cases key with
  | none =>
    refine fun store => ?_
    show store.docs = replay (written (.delete id) (.ok (.value (.bool false)))) _
    cases id <;> rfl
  | some text =>
    obtain rfl := h text rfl
    exact (Store.records_delete text).map (fun found => by cases found <;> rfl) fun _ => rfl

/-- So has a step that deletes. -/
theorem records_run_delete (id : Value) : Records (run (.delete id)) (written (.delete id)) := by
  refine .after retains_get (fun _ store _ _ => ?_) (written_error _)
  dsimp only
  split
  · refine .after (.pure none) (fun _ key _ hkey => records_delete_key fun text htext => ?_)
      (written_error _)
    cases (Except.ok.inj (congrArg Prod.fst hkey)).trans htext
  · refine .after (.ofExcept _) (fun _ key _ hkey => records_delete_key fun text htext => ?_)
      (written_error _)
    exact eq_str_of_asKey ((congrArg Prod.fst hkey).trans (congrArg Except.ok htext))

/-! ### Runs -/

/-- The outcome of a transaction that begins is that of its steps, and a fault that leaves it takes
it back to where it began. -/
theorem run_scope {steps : List StoreStep} {store entered : Store}
    (h : (Store.enter .transaction).run store = (.ok (), entered)) :
    (run (.scope steps)).run store =
      match (runAll steps).run entered with
      | (.ok replies, left) => (.ok (.several replies), left)
      | (.error fault, left) => (.error fault, { left with docs := entered.docs }) := by
  rw [run, Store.transaction, run_bind, run_bind_ok h, run_bind_ok (run_get entered),
    run_bind_ok (run_attempt (runAll steps) entered)]
  rcases (runAll steps).run entered with ⟨_ | _, left⟩ <;> rfl

/-- Steps whose fault is caught leave the store as they do by themselves. -/
theorem store_run_guarded (steps : List StoreStep) (store : Store) :
    ((run (.guarded steps)).run store).2 = ((runAll steps).run store).2 := by
  rw [run, run_bind_ok (run_attempt (runAll steps) store)]
  rcases (runAll steps).run store with ⟨_ | _, left⟩ <;> rfl

/-- A step that is no scope has done what it has written. -/
theorem docs_of_records {step : StoreStep} {store : Store} (h : Records (run step) (written step))
    (hdeeds : deeds step store = (written step ((run step).run store).1).map .write) :
    ((run step).run store).2.docs = replay (keptAll (deeds step store)) store.docs := by
  rw [hdeeds, keptAll_map_write]
  exact h store

mutual

/-- A step leaves the documents that come of what it has done and no fault has taken back. -/
theorem docs_run : ∀ (step : StoreStep) (store : Store),
    ((run step).run store).2.docs = replay (keptAll (deeds step store)) store.docs
  | .insert doc, _ => docs_of_records (records_run_insert doc) rfl
  | .update id changes, _ => docs_of_records (records_run_update id changes) rfl
  | .delete id, _ => docs_of_records (records_run_delete id) rfl
  | .find criteria, store =>
    (Moves.bind (R := Retains Store.docs) (.ofExcept _) fun _ =>
      .bind (Store.retains_find _) fun _ => .pure _) store
  | .findOne criteria, store =>
    (Moves.bind (R := Retains Store.docs) (.ofExcept _) fun _ =>
      .bind (Store.retains_findOne _) fun _ => .pure _) store
  | .raise fault, store => rfl
  | .scope steps, store => by
    have hdocs : ((Store.enter .transaction).run store).2.docs = store.docs :=
      Store.retains_enter .transaction store
    rcases hentered : (Store.enter .transaction).run store with ⟨fault | _, entered⟩ <;>
      rw [hentered] at hdocs
    · rw [deeds, hentered, run, Store.transaction, run_bind, run_bind_error hentered]
      exact hdocs
    · have hsteps := docs_runAll steps entered
      rw [run_scope hentered, deeds, hentered, ← hdocs]
      dsimp only
      rw [keptAll, keptAll, List.append_nil, kept]
      rcases hrun : (runAll steps).run entered with ⟨fault | replies, left⟩ <;> rw [hrun] at hsteps
      · rfl
      · exact hsteps
  | .guarded steps, store => by
    rw [deeds, store_run_guarded]
    exact docs_runAll steps store

/-- Steps leave the documents that come of what they have done and no fault has taken back. -/
theorem docs_runAll : ∀ (steps : List StoreStep) (store : Store),
    ((runAll steps).run store).2.docs = replay (keptAll (deedsAll steps store)) store.docs
  | [], _ => rfl
  | step :: rest, store => by
    have hstep := docs_run step store
    rw [runAll, deedsAll, keptAll_append, replay_append, ← hstep, run_bind]
    rcases (run step).run store with ⟨fault | reply, next⟩
    · rfl
    · have hrest := docs_runAll rest next
      dsimp only
      rw [run_bind, ← hrest]
      rcases (runAll rest).run next with ⟨_ | _, left⟩ <;> rfl

end

/-! ### Programs in parts -/

/-- What the second part of a program has done, it has done on the store that the first part
left. -/
theorem deedsAll_append {earlier later : List StoreStep} {store reached : Store}
    {replies : List StoreReply} (h : (runAll earlier).run store = (.ok replies, reached)) :
    deedsAll (earlier ++ later) store = deedsAll earlier store ++ deedsAll later reached := by
  induction earlier generalizing store replies with
  | nil =>
    obtain rfl : store = reached := congrArg Prod.snd h
    rfl
  | cons step rest ih =>
    obtain ⟨reply, next, hstep, h⟩ := exists_of_run_bind h
    obtain ⟨others, last, hrest, hpure⟩ := exists_of_run_bind h
    obtain rfl : last = reached := congrArg Prod.snd hpure
    rw [List.cons_append, deedsAll, deedsAll, hstep]
    dsimp only
    rw [ih hrest, List.append_assoc]

/-- Of a transaction that ends well all is kept that is kept of its steps. -/
theorem keptAll_deeds_scope_of_ok {steps : List StoreStep} {store entered left : Store}
    {reply : StoreReply} (hentered : (Store.enter .transaction).run store = (.ok (), entered))
    (h : (run (.scope steps)).run store = (.ok reply, left)) :
    keptAll (deeds (.scope steps) store) = keptAll (deedsAll steps entered) := by
  rw [run_scope hentered] at h
  rw [deeds, hentered]
  dsimp only
  rcases hrun : (runAll steps).run entered with ⟨_ | _, _⟩ <;> rw [hrun] at h
  · cases congrArg Prod.fst h
  · exact List.append_nil _

/-- Nothing is kept of a transaction that ends in a fault. -/
theorem keptAll_deeds_scope_of_error {steps : List StoreStep} {store left : Store} {fault : Fault}
    (h : (run (.scope steps)).run store = (.error fault, left)) :
    keptAll (deeds (.scope steps) store) = [] := by
  rw [deeds]
  rcases hentered : (Store.enter .transaction).run store with ⟨_ | _, entered⟩
  · rfl
  · rw [run_scope hentered] at h
    dsimp only
    rcases hrun : (runAll steps).run entered with ⟨_ | _, _⟩ <;> rw [hrun] at h
    · rfl
    · cases congrArg Prod.fst h

/-- A transaction that ends in a fault leaves the documents as they were. -/
theorem docs_scope_of_error {steps : List StoreStep} {store left : Store} {fault : Fault}
    (h : (run (.scope steps)).run store = (.error fault, left)) : left.docs = store.docs := by
  have hdocs := docs_run (.scope steps) store
  rw [keptAll_deeds_scope_of_error h, h] at hdocs
  exact hdocs

/-- A transaction in which the fault of another one was caught keeps what was written in it before
and after that one. -/
theorem docs_scope_of_caught {earlier inner later : List StoreStep}
    {store entered reached resumed left : Store} {replies : List StoreReply} {reply : StoreReply}
    {fault : Fault} (hentered : (Store.enter .transaction).run store = (.ok (), entered))
    (hearlier : (runAll earlier).run entered = (.ok replies, reached))
    (hinner : (run (.scope inner)).run reached = (.error fault, resumed))
    (h : (run (.scope (earlier ++ .guarded [.scope inner] :: later))).run store
      = (.ok reply, left)) :
    left.docs = replay (keptAll (deedsAll earlier entered) ++ keptAll (deedsAll later resumed))
      store.docs := by
  have hone : (runAll [.scope inner]).run reached = (.error fault, resumed) := by
    rw [runAll, run_bind_error hinner]
  have hguarded : (run (.guarded [.scope inner])).run reached
      = (.ok (.fault fault), resumed) := by
    rw [run, run_bind_ok (run_attempt _ reached), hone]
    rfl
  have hnothing : keptAll (deeds (.guarded [.scope inner]) reached) = [] := by
    rw [deeds, deedsAll, hinner, List.append_nil]
    exact keptAll_deeds_scope_of_error hinner
  have hdocs := docs_run (.scope (earlier ++ .guarded [.scope inner] :: later)) store
  rw [keptAll_deeds_scope_of_ok hentered h, h, deedsAll_append hearlier, deedsAll, hguarded,
    keptAll_append, keptAll_append, hnothing, List.nil_append] at hdocs
  exact hdocs

/-- Transactions in each other take back exactly what was done in them. Whatever a program does on
whatever store, the documents afterwards are those from before with all writes made but those in a
transaction that a fault has left. So a transaction that a fault leaves changes no document, also
when transactions in it had ended well; one in which the fault of another one was caught keeps what
was written in it before and after that one; and steps whose fault is caught outside of a
transaction leave what they have written. -/
theorem rolls_back_exactly :
    (∀ steps store, ((runAll steps).run store).2.docs
      = replay (keptAll (deedsAll steps store)) store.docs) ∧
    (∀ steps store fault left, (run (.scope steps)).run store = (.error fault, left) →
      left.docs = store.docs) ∧
    (∀ earlier inner later store entered reached resumed left replies reply fault,
      (Store.enter .transaction).run store = (.ok (), entered) →
      (runAll earlier).run entered = (.ok replies, reached) →
      (run (.scope inner)).run reached = (.error fault, resumed) →
      (run (.scope (earlier ++ .guarded [.scope inner] :: later))).run store = (.ok reply, left) →
      left.docs
        = replay (keptAll (deedsAll earlier entered) ++ keptAll (deedsAll later resumed))
          store.docs) ∧
    (∀ steps store, ((run (.guarded steps)).run store).2.docs
      = ((runAll steps).run store).2.docs) :=
  ⟨docs_runAll, fun _ _ _ _ => docs_scope_of_error,
    fun _ _ _ _ _ _ _ _ _ _ _ => docs_scope_of_caught,
    fun steps store => congrArg Store.docs (store_run_guarded steps store)⟩

/-- In a transaction a document is put in, one more in another transaction whose fault is caught,
and then a third one: the first and the third are there. -/
example :
    let doc (n : Int) : Value := .object [("n", .int n)]
    ((runAll [.scope [.insert (doc 1),
        .guarded [.scope [.insert (doc 2), .delete (.str (Store.docId 1)),
          .raise Store.writeFailed]],
        .insert (doc 3)]]).run Store.empty).2.docs.map (fun entry => Table.get? "n" entry.2)
      = [some (.int 1), some (.int 3)] := by
  rfl

end StoreStep

end HerdBook
