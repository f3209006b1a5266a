import HerdBook.Proofs.Bindings
import HerdBook.Proofs.Joins

/-!
# What the patterns of a route find

The patterns of a route's rules are one for the request, and at most one more for an action that
the request has led to. In a flow that begins with one request there is at most one event for each.

## Main results

* `Pattern.combinations_one`, `Pattern.combinations_two`: what is found when there is one event of
  each kind.
* `Rules.match?_request`, `Rules.match?_request_of_ne`: the pattern of a request for a path, on a
  request for that path and on one for another.
* `Rules.match?_completed`: the pattern of an action, after that of the request.
-/

namespace HerdBook

namespace Pattern

variable {p q : Pattern} {rest : List Pattern} {log : List Event} {e e' : Event}
  {frame frame' : Frame}

/-- Without combinations to continue nothing is found. -/
theorem joinAll_nil (patterns : List Pattern) (log : List Event) :
    joinAll log patterns [] = .ok [] := by
  induction patterns with
  | nil => rfl
  | cons pattern rest ih => exact ih

/-- An event is all there is to continue a combination. -/
theorem continueAll_of_filter_eq {b : Combination} (hlog : log.filter p.concerns = [e])
    (hn : e.number ∉ b.2) {here : Option Frame} (hm : p.match? e b.1 = .ok here) :
    p.continueAll log [b]
      = .ok (here.map fun frame => (frame, b.2 ++ [e.number])).toList := by
  rw [continueAll, ← continuations_filter, hlog, continuations, continuations, hm]
  simp only [hn, if_false]
  cases here <;> rfl

/-- There is nothing to continue a combination. -/
theorem continueAll_of_filter_eq_nil {b : Combination} (hlog : log.filter p.concerns = []) :
    p.continueAll log [b] = .ok [] := by
  rw [continueAll, ← continuations_filter, hlog]
  rfl

/-- What one pattern finds when there is one event of its kind. -/
theorem combinations_one (hlog : log.filter p.concerns = [e])
    (hm : p.match? e .empty = .ok (some frame)) :
    combinations [p] log = .ok [(frame, [e.number])] := by
  rw [combinations, joinAll, continueAll_of_filter_eq hlog (by simp) hm]
  rfl

/-- Nothing is found when the only event of the first pattern's kind does not match. -/
theorem combinations_of_match?_none (hlog : log.filter p.concerns = [e])
    (hm : p.match? e .empty = .ok none) : combinations (p :: rest) log = .ok [] := by
  rw [combinations, joinAll, continueAll_of_filter_eq hlog (by simp) hm]
  exact joinAll_nil rest log

/-- What two patterns find when there is one event of each kind. -/
theorem combinations_two {here : Option Frame} (hlog : log.filter p.concerns = [e])
    (hm : p.match? e .empty = .ok (some frame)) (hlog' : log.filter q.concerns = [e'])
    (hne : e'.number ≠ e.number) (hm' : q.match? e' frame = .ok here) :
    combinations [p, q] log
      = .ok (here.map fun frame' => (frame', [e.number, e'.number])).toList := by
  rw [combinations, joinAll, continueAll_of_filter_eq hlog (by simp) hm]
  change joinAll log [q] [(frame, [e.number])] = _
  rw [joinAll, continueAll_of_filter_eq hlog' (by simpa using hne) hm']
  rfl

/-- Two patterns find nothing when there is no event of the second kind. -/
theorem combinations_two_of_nil (hlog : log.filter p.concerns = [e])
    (hm : p.match? e .empty = .ok (some frame)) (hlog' : log.filter q.concerns = []) :
    combinations [p, q] log = .ok [] := by
  rw [combinations, joinAll, continueAll_of_filter_eq hlog (by simp) hm]
  change joinAll log [q] [(frame, [e.number])] = _
  rw [joinAll, continueAll_of_filter_eq_nil hlog']
  rfl

end Pattern

namespace Rules

open HerdBook.Frame

variable {rule path p concept action : String} {names : List String} {input args out : Fields}
  {frame : Frame} {rid : Value}

/-! ### Requests -/

/-- What a frame binds after the pattern of a request that names fields. -/
def asked (names : List String) (input : Fields) (rid : Value) (n : String) : Option Value :=
  if n = "request" then some rid else if n ∈ names then Table.get? n input else none

/-- The frame after the pattern of a request that names fields. -/
def askedFrame (rule : String) (names : List String) (input : Fields) (rid : Value) : Frame :=
  (Frame.empty.extend (found rule names input)).extend
    (found rule ["request"] [("request", rid)])

variable (rule names input rid) in
/-- What that frame binds. -/
theorem reads_askedFrame (hn : names.Nodup) :
    (askedFrame rule names input rid).Reads rule (asked names input rid) := by
  have hone : ["request"].Nodup := by simp
  have h := ((reads_empty rule).extend hn input).extend hone [("request", rid)]
  intro n
  rw [askedFrame, h n, asked]
  by_cases hr : n = "request"
  · simp [hr, Table.get?]
  · simp [hr]

/-- The event of a request. -/
def IsRequest (event : Event) (input : Fields) (rid : Value) : Prop :=
  event.concept = requesting ∧ event.action = "request" ∧ event.input = .object input ∧
    event.output = .object [("request", rid)]

/-- The pattern of a request for a path matches the request for it. -/
theorem match?_request {event : Event} (he : IsRequest event input rid) (hn : names.Nodup)
    (hr : "request" ∉ names) (hp : Table.get? "path" input = some (.str path)) :
    (request rule path (vars rule names)).match? event .empty
      = .ok (some (askedFrame rule names input rid)) := by
  obtain ⟨hc, ha, hi, ho⟩ := he
  have hconcerns : (request rule path (vars rule names)).concerns event = true := by
    simp [Pattern.concerns, request, completed, hc, ha, ho, Value.isNull]
  have hinput : Frame.empty.unifyValue? .optional
      (.object (("path", .str path) :: vars rule names)) (.object input)
        = .ok (some (Frame.empty.extend (found rule names input))) := by
    have hvars := unify?_vars rule .empty _ input _ hn (fun _ _ => rfl) (.inl rfl)
    rw [unify?] at hvars
    simp [unifyValue?, unify?, unifyFields, hp, unifyDatum, Value.same, hvars]
  have houtput : (Frame.empty.extend (found rule names input)).unifyValue? .required
      (.object (vars rule ["request"])) (.object [("request", rid)])
        = .ok (some (askedFrame rule names input rid)) := by
    have hfresh : ∀ n ∈ ["request"],
        (Frame.empty.extend (found rule names input)).get? (symbol rule n) = none := by
      intro n hmem
      obtain rfl := List.mem_singleton.mp hmem
      rw [(reads_empty rule).extend hn input]
      simp [hr]
    exact congrArg Except.ok (unify?_vars _ _ _ _ _ (by simp) hfresh (.inr (by simp [Table.get?])))
  rw [Pattern.match?, if_pos hconcerns, hi, ho]
  change (Frame.empty.unifyValue? .optional (.object (("path", .str path) :: vars rule names))
    (.object input) >>= fun _ => _) = _
  rw [hinput]
  exact houtput

/-- The pattern of a request for a path matches no request for another path. -/
theorem match?_request_of_ne {event : Event} {inputs : Fields} (he : IsRequest event input rid)
    (hp : Table.get? "path" input = some (.str p)) (hne : p ≠ path) :
    (request rule path inputs).match? event frame = .ok none := by
  obtain ⟨hc, ha, hi, ho⟩ := he
  have hconcerns : (request rule path inputs).concerns event = true := by
    simp [Pattern.concerns, request, completed, hc, ha, ho, Value.isNull]
  rw [Pattern.match?, if_pos hconcerns, hi, ho]
  change (Except.ok (frame.unify? .optional (("path", .str path) :: inputs) input) >>= fun _ => _)
    = _
  have hnone : frame.unify? .optional (("path", .str path) :: inputs) input = none := by
    simp [unify?, unifyFields, hp, unifyDatum, Value.same, Ne.symm hne]
  rw [hnone]
  rfl

/-- The pattern of a request without a token matches a request for the path that has none. -/
theorem match?_request_without {event : Event} (he : IsRequest event input rid)
    (hp : Table.get? "path" input = some (.str path)) (ht : Table.get? "token" input = none) :
    (request rule path [("token", .notApplicable)]).match? event .empty
      = .ok (some (askedFrame rule [] input rid)) := by
  rw [← match?_request he List.nodup_nil (by simp) hp]
  obtain ⟨hc, ha, hi, ho⟩ := he
  simp [Pattern.match?, Pattern.concerns, request, completed, vars, hi, unifyValue?, unify?,
    unifyFields, hp, unifyDatum, Value.same, ht, Presence.allowsAbsent]

/-- It matches no request that has a token. -/
theorem match?_request_without_of_some {event : Event} {t : Value} (he : IsRequest event input rid)
    (ht : Table.get? "token" input = some t) (ha : t.isNotApplicable = false) :
    (request rule path [("token", .notApplicable)]).match? event .empty = .ok none := by
  obtain ⟨hc, hact, hi, ho⟩ := he
  have hconcerns : (request rule path [("token", .notApplicable)]).concerns event = true := by
    simp [Pattern.concerns, request, completed, hc, hact, ho, Value.isNull]
  have hnone : Frame.empty.unify? .optional [("path", .str path), ("token", .notApplicable)] input
      = none := by
    have hlast : ∀ made, Frame.empty.unifyFields .optional input [("token", .notApplicable)] made
        = none := by
      intro made
      cases t <;> simp_all [unifyFields, unifyDatum, Value.same, Value.isNotApplicable,
        Value.sameAmount, Value.amount?]
    exact unify?_append_eq_none [("path", .str path)] hlast
  rw [Pattern.match?, if_pos hconcerns, hi, ho]
  change (Except.ok (Frame.empty.unify? .optional
    [("path", .str path), ("token", .notApplicable)] input) >>= fun _ => _) = _
  rw [hnone]
  rfl

/-! ### Actions -/

/-- The event of an action with arguments by name and an answer of fields. -/
def IsCompleted (event : Event) (concept action : String) (args out : Fields) : Prop :=
  event.concept = concept ∧ event.action = action ∧ event.input = .object args ∧
    event.output = .object out

/-- The pattern of an action, after that of the request: when the frame binds the fields that they
share to what the action was performed with, all depends on the answer. -/
theorem match?_completed {event : Event} {g : String → Option Value} {shared : List String}
    {outputs : Fields} (he : IsCompleted event concept action args out) (hf : frame.Reads rule g)
    (hshared : ∀ n ∈ shared, ∀ v, Table.get? n args = some v →
      ∃ w, g n = some w ∧ w.same v = true) :
    (completed concept action (vars rule shared) outputs).match? event frame
      = .ok (frame.unify? .required outputs out) := by
  obtain ⟨hc, ha, hi, ho⟩ := he
  have hconcerns : (completed concept action (vars rule shared) outputs).concerns event = true := by
    simp [Pattern.concerns, completed, hc, ha, ho, Value.isNull]
  have hknown := unifyFields_known rule frame [] [] fun n hn v hv => by
    simpa [hf n] using hshared n hn v hv
  rw [List.append_nil] at hknown
  have hinput : frame.unify? .optional (vars rule shared) args = some frame := by
    rw [unify?, hknown]
    rfl
  rw [Pattern.match?, if_pos hconcerns, hi, ho]
  change (Except.ok (frame.unify? .optional (vars rule shared) args) >>= fun _ => _) = _
  rw [hinput]
  rfl

variable (frame) in
/-- An answer without an error has the fields of a success. -/
theorem unify?_success (hn : names.Nodup) (hf : ∀ n ∈ names, frame.get? (symbol rule n) = none)
    (hall : ∀ n ∈ names, (Table.get? n out).isSome = true)
    (he : Table.get? "error" out = none) :
    frame.unify? .required (vars rule names ++ [("error", .notApplicable)]) out
      = some (frame.extend (found rule names out)) := by
  rw [unify?, unifyFields_vars _ _ hn hf (fun _ _ => rfl) (.inr hall)]
  simp [unifyFields, he, Presence.allowsAbsent]

variable (rule names) in
/-- An answer with an error is no success. -/
theorem unify?_success_of_error {error : String} (he : Table.get? "error" out = some (.str error)) :
    frame.unify? .required (vars rule names ++ [("error", .notApplicable)]) out = none := by
  refine unify?_append_eq_none _ fun made => ?_
  simp [unifyFields, he, unifyDatum, Value.same, Value.sameAmount, Value.amount?]

/-- An answer without a field does not match a pattern that requires it. -/
theorem unify?_eq_none {field : String} (h : Table.get? field out = none) :
    frame.unify? .required (vars rule [field]) out = none := by
  refine unify?_append_eq_none [] fun made => ?_
  simp [var, unifyFields, h, Presence.allowsAbsent]

end Rules

end HerdBook
