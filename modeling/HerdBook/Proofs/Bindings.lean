import HerdBook.Rules.Shape
import Mathlib.Logic.Function.Basic

/-!
# What the frames of a rule bind

The symbols of a rule are named after fields, so a frame of the rule is described by what it binds
to each name (`Frame.Reads`). Here stands what patterns, stages and templates do to such a
description.

## Main results

* `Frame.unifyFields_vars`, `Frame.unifyFields_known`: a pattern of symbols on data, when the
  symbols are new to the frame and when the frame binds them to what the data hold.
* `Frame.Reads.extend`: what the extended frame binds.
* `Frame.Reads.fillFields_vars`: what a template of symbols is filled in with.
-/

namespace HerdBook

open Rules

namespace Table

variable {α β : Type} [DecidableEq α]

/-- In two tables after each other a key is looked for in the first one first. -/
theorem get?_append (key : α) (first second : List (α × β)) :
    get? key (first ++ second) = (get? key first).or (get? key second) := by
  induction first with
  | nil => rfl
  | cons entry rest ih =>
    obtain ⟨k, v⟩ := entry
    by_cases hk : k = key <;> simp [get?, hk, ih]

/-- In a table made of names each is found with what is made of it. -/
theorem get?_map_pair (key : α) (f : α → β) (names : List α) :
    get? key (names.map fun n => (n, f n)) = if key ∈ names then some (f key) else none := by
  induction names with
  | nil => rfl
  | cons n names ih =>
    by_cases hn : n = key
    · simp [get?, hn]
    · simp [get?, hn, ih, Ne.symm hn]

/-- What is found after changes that name each key once. -/
theorem get?_merge (key : α) (base : List (α × β)) {changes : List (α × β)}
    (h : (keys changes).Nodup) :
    get? key (merge base changes) = (get? key changes).or (get? key base) := by
  induction changes generalizing base with
  | nil => rfl
  | cons entry rest ih =>
    obtain ⟨k, v⟩ := entry
    have hn : k ∉ keys rest ∧ (keys rest).Nodup := List.nodup_cons.1 h
    change get? key (merge (set k v base) rest) = _
    rw [ih _ hn.2, get?_set]
    by_cases hk : k = key
    · subst hk
      simp [get?, get?_eq_none k hn.1]
    · simp [get?, hk]

end Table

namespace Frame

variable {rule : String} {g : String → Option Value} {frame : Frame} {names : List String}
  {data rest : Fields} {made : List (Symbol × Value)} {presence : Presence}

/-- Two symbols of a rule are one when their names are. -/
@[simp] theorem symbol_inj {n m : String} : symbol rule n = symbol rule m ↔ n = m := by
  simp [symbol, Symbol.plain]

/-- The frame binds the symbols of the rule as described, by their names. -/
def Reads (frame : Frame) (rule : String) (g : String → Option Value) : Prop :=
  ∀ n, frame.get? (symbol rule n) = g n

/-- The empty frame binds nothing. -/
theorem reads_empty (rule : String) : Frame.empty.Reads rule fun _ => none := fun _ => rfl

/-! ### Matching -/

/-- The bindings of the symbols of some names to what data hold under these. -/
def found (rule : String) (names : List String) (data : Fields) : List (Symbol × Value) :=
  names.filterMap fun n => (Table.get? n data).map fun v => (symbol rule n, v)

/-- The bindings of one more name. -/
theorem found_cons (rule n : String) (names : List String) (data : Fields) :
    found rule (n :: names) data
      = ((Table.get? n data).map fun v => (symbol rule n, v)).toList ++ found rule names data := by
  unfold found
  cases h : Table.get? n data <;> simp [h]

/-- What the bindings found say of a name. -/
theorem get?_found (n : String) :
    Table.get? (symbol rule n) (found rule names data)
      = if n ∈ names then Table.get? n data else none := by
  induction names with
  | nil => rfl
  | cons m names ih =>
    rw [found_cons, Table.get?_append, ih]
    by_cases hnm : m = n
    · subst hnm
      cases h : Table.get? m data <;> simp [Table.get?]
    · cases h : Table.get? m data <;> simp [Table.get?, hnm, Ne.symm hnm]

/-- The bindings found are of different symbols when the names are different. -/
theorem nodup_keys_found (h : names.Nodup) : (Table.keys (found rule names data)).Nodup := by
  induction names with
  | nil => simp [found, Table.keys]
  | cons n names ih =>
    obtain ⟨hn, hnames⟩ := List.nodup_cons.mp h
    rw [found_cons]
    cases hv : Table.get? n data with
    | none => exact ih hnames
    | some v =>
      refine List.nodup_cons.mpr ⟨fun hmem => hn ?_, ih hnames⟩
      have hhas := (Table.has_iff_mem_keys (symbol rule n) (found rule names data)).mpr hmem
      rw [Table.has, get?_found] at hhas
      by_contra hnot
      simp [hnot] at hhas

variable (rest made) in
/-- Symbols that are new to a frame bind to what the data hold. -/
theorem unifyFields_vars (hn : names.Nodup) (hframe : ∀ n ∈ names, frame.get? (symbol rule n) =
    none)
    (hmade : ∀ n ∈ names, Table.get? (symbol rule n) made = none)
    (hp : presence = .optional ∨ ∀ n ∈ names, (Table.get? n data).isSome = true) :
    frame.unifyFields presence data (vars rule names ++ rest) made
      = frame.unifyFields presence data rest (made ++ found rule names data) := by
  induction names generalizing made with
  | nil => simp [vars, found]
  | cons n names ih =>
    obtain ⟨hnot, hnames⟩ := List.nodup_cons.mp hn
    rw [List.forall_mem_cons] at hframe hmade
    have hp' : presence = .optional ∨ ∀ m ∈ names, (Table.get? m data).isSome = true :=
      hp.imp_right fun h m hm => h m (List.mem_cons_of_mem _ hm)
    change frame.unifyFields presence data ((n, var rule n) :: (vars rule names ++ rest)) made = _
    rw [found_cons, unifyFields]
    cases hv : Table.get? n data with
    | none =>
      have hopt : presence = .optional := hp.resolve_right fun h => by
        simpa [hv] using h n List.mem_cons_self
      simp only [hopt, var, Presence.allowsAbsent, if_true]
      simpa [hopt] using ih _ hnames hframe.2 hmade.2 hp'
    | some v =>
      simp only [var, unifyDatum, hframe.1, hmade.1, Option.or_none, Option.bind_some,
        Option.map_some, Option.toList_some]
      rw [ih _ hnames hframe.2 (fun m hm => ?_) hp', List.append_assoc]
      have hne : n ≠ m := fun h => hnot (h ▸ hm)
      simp [Table.get?_append, hmade.2 m hm, Table.get?, hne]

variable (rule frame rest made) in
/-- Symbols that the frame binds to what the data hold bind nothing further. -/
theorem unifyFields_known (h : ∀ n ∈ names, ∀ v, Table.get? n data = some v →
      ∃ w, frame.get? (symbol rule n) = some w ∧ w.same v = true) :
    frame.unifyFields .optional data (vars rule names ++ rest) made
      = frame.unifyFields .optional data rest made := by
  induction names with
  | nil => rfl
  | cons n names ih =>
    rw [List.forall_mem_cons] at h
    change frame.unifyFields .optional data ((n, var rule n) :: (vars rule names ++ rest)) made = _
    rw [unifyFields]
    cases hv : Table.get? n data with
    | none => simpa [var, Presence.allowsAbsent] using ih h.2
    | some v =>
      obtain ⟨w, hw, hsame⟩ := h.1 v hv
      simpa [var, unifyDatum, hw, hsame] using ih h.2

/-- A pattern fails when its last part does. -/
theorem unifyFields_append_eq_none {first : Fields}
    (h : ∀ made, frame.unifyFields presence data rest made = none) :
    frame.unifyFields presence data (first ++ rest) made = none := by
  induction first generalizing made with
  | nil => exact h made
  | cons entry first ih =>
    obtain ⟨name, want⟩ := entry
    rw [List.cons_append, unifyFields]
    cases Table.get? name data with
    | none => split <;> simp [ih]
    | some got => cases unifyDatum frame made want got <;> simp [ih]

/-- A pattern fails when its last part does. -/
theorem unify?_append_eq_none (first : Fields)
    (h : ∀ made, frame.unifyFields presence data rest made = none) :
    frame.unify? presence (first ++ rest) data = none := by
  rw [unify?, unifyFields_append_eq_none h]
  rfl

variable (rule frame names data presence) in
/-- A pattern of new symbols extends the frame by what the data hold. -/
theorem unify?_vars (hn : names.Nodup) (hframe : ∀ n ∈ names, frame.get? (symbol rule n) = none)
    (hp : presence = .optional ∨ ∀ n ∈ names, (Table.get? n data).isSome = true) :
    frame.unify? presence (vars rule names) data = some (frame.extend (found rule names data)) := by
  have h := unifyFields_vars [] [] hn hframe (fun _ _ => rfl) hp
  rw [List.append_nil] at h
  rw [unify?, h]
  rfl

/-- What a frame binds after a match of new symbols. -/
theorem Reads.extend (h : frame.Reads rule g) (hn : names.Nodup) (data : Fields) :
    (frame.extend (found rule names data)).Reads rule
      fun n => if n ∈ names then (Table.get? n data).or (g n) else g n := by
  intro n
  change Table.get? (symbol rule n) (Table.merge frame.bindings _) = _
  rw [Table.get?_merge _ _ (nodup_keys_found hn), get?_found]
  have hg : Table.get? (symbol rule n) frame.bindings = g n := h n
  rw [hg]
  by_cases hmem : n ∈ names <;> simp [hmem]

/-! ### Binding -/

/-- What a frame binds after one more symbol is bound. -/
theorem Reads.bind (h : frame.Reads rule g) (n : String) (v : Value) :
    (frame.bind (symbol rule n) v).Reads rule (Function.update g n (some v)) := by
  intro m
  rw [get?_bind, h m, Function.update_apply]
  by_cases hnm : n = m
  · simp [hnm]
  · simp [hnm, Ne.symm hnm]

/-- What a frame binds after the empty text is bound where nothing was. -/
theorem Reads.bindOrEmpty (h : frame.Reads rule g) (n : String) :
    (bindOrEmpty (symbol rule n) frame).Reads rule
      (Function.update g n (some ((g n).getD (.str "")))) := by
  have hb := h.bind n ((g n).getD (.str ""))
  rwa [← h n] at hb ⊢

/-- Binding a symbol drops none. -/
theorem changeOne_bind (frame : Frame) (s : Symbol) (value : Frame → Value) :
    Stage.changeOne (fun frame => .ok (frame.bind s (value frame))) frame
      = .ok (frame.bind s (value frame)) := by
  have hkept : (frame.symbols.filter fun t => !(frame.bind s (value frame)).binds t) = [] := by
    rw [List.filter_eq_nil_iff]
    intro t ht
    have hbinds : frame.binds t = true := (Table.has_iff_mem_keys t frame.bindings).mpr ht
    have : (frame.bind s (value frame)).binds t = true := by
      rw [binds, get?_bind]
      split
      · rfl
      · exact hbinds
    simp [this]
  change (if List.isEmpty _ then _ else _) = _
  rw [hkept]
  rfl

/-! ### Questions -/

/-- Whether the symbols of some names are bound. -/
theorem Reads.holds_bound (h : frame.Reads rule g) (names : List String) :
    (Check.bound (Rules.symbols rule names)).holds frame
      = .ok (names.all fun n => (g n).isSome) := by
  have hbinds : frame.binds ∘ symbol rule = fun n => (g n).isSome := by
    funext n
    simp [binds, h n]
  rw [Check.holds, Rules.symbols, List.all_map, hbinds]

/-- The names whose symbols are not bound. -/
theorem Reads.missingFields (h : frame.Reads rule g) (names : List String) :
    missingFields rule names frame = names.filter fun n => (g n).isNone := by
  simp [Rules.missingFields, binds, h _]

/-- Whether a symbol that is bound holds a real value. -/
theorem Reads.holds_applicable (h : frame.Reads rule g) {n : String} {v : Value}
    (hv : g n = some v) :
    (Check.applicable (symbol rule n)).holds frame = .ok !v.isNotApplicable := by
  rw [Check.holds, read, h n, hv]
  rfl

/-- Whether a symbol that is bound holds the placeholder. -/
theorem Reads.holds_inapplicable (h : frame.Reads rule g) {n : String} {v : Value}
    (hv : g n = some v) :
    (Check.inapplicable (symbol rule n)).holds frame = .ok v.isNotApplicable := by
  rw [Check.holds, read, h n, hv]
  rfl

/-! ### Filling in -/

/-- A symbol that holds a real value is replaced by it. -/
theorem Reads.fill_var (h : frame.Reads rule g) {n : String} {v : Value} (hv : g n = some v)
    (ha : v.isNotApplicable = false) : (var rule n).fill frame = .ok v := by
  have hread : frame.read (symbol rule n) = .ok v := by
    simp [read, h n, hv]
  change (frame.read (symbol rule n) >>= fun v => _) = _
  rw [hread]
  exact if_neg (by simp [ha])

/-- A field that stands for a symbol. -/
theorem Reads.fillFields_var (h : frame.Reads rule g) {n : String} {v : Value}
    (hv : g n = some v) (ha : v.isNotApplicable = false) (field : String) :
    Value.fillFields frame [(field, var rule n)] = .ok [(field, v)] := by
  rw [Value.fillFields, h.fill_var hv ha]
  rfl

variable (names) in
/-- Symbols that hold real values are replaced by them. -/
theorem Reads.fillFields_vars (h : frame.Reads rule g)
    (ha : ∀ n ∈ names, ∃ v, g n = some v ∧ v.isNotApplicable = false) :
    Value.fillFields frame (vars rule names)
      = .ok (names.map fun n => (n, (g n).getD .null)) := by
  induction names with
  | nil => rfl
  | cons n names ih =>
    rw [List.forall_mem_cons] at ha
    obtain ⟨⟨v, hv, hav⟩, hrest⟩ := ha
    change Value.fillFields frame ((n, var rule n) :: vars rule names) = _
    rw [Value.fillFields, h.fill_var hv hav, ih hrest, List.map_cons, hv]
    rfl

/-- Symbols that hold what some data hold under their names are replaced by it. -/
theorem fillFields_of_get? {out : Fields}
    (h : ∀ n ∈ names, frame.get? (symbol rule n) = Table.get? n out)
    (ha : ∀ n ∈ names, ∃ v, Table.get? n out = some v ∧ v.isNotApplicable = false) :
    Value.fillFields frame (vars rule names)
      = .ok (names.map fun n => (n, (Table.get? n out).getD .null)) := by
  have hreads : frame.Reads rule fun n => frame.get? (symbol rule n) := fun _ => rfl
  rw [hreads.fillFields_vars _ fun n hn => by rw [h n hn]; exact ha n hn]
  exact congrArg Except.ok (List.map_congr_left fun n hn => by rw [h n hn])

end Frame

end HerdBook
