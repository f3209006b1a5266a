import HerdBook.Proofs.Rolls
import Mathlib.Data.List.Induction

/-!
# Registrations and sessions

The accounts are asked one thing after the other (`AccountStep`), while others hand out ids and
tokens. What they are about afterwards is what their roll says, and this is said by the calls that
have succeeded: who has registered with which password, and who has logged in and not out again.

* `Accounts.Registered`: a call has registered a user.
* `Accounts.IsOpen`: a call has opened a session, and none has closed it since.

## Main results

* `Accounts.exists_records`: after any calls there is a roll, which records just these calls.
* `Accounts.ofSteps_honors`: what is promised of the accounts after any calls.
-/

namespace HerdBook

/-- What happens to the accounts. -/
inductive AccountStep where
  | call (action : AccountAction)
  /-- Elsewhere documents get ids, and sessions get tokens. -/
  | elsewhere (documents tokens : Nat)

/-- The accounts after a step. -/
def AccountStep.after (derive : String → String → String) : AccountStep → Accounts → Accounts
  | .call action, accounts => ((action.run derive).run accounts).2
  | .elsewhere documents tokens, accounts =>
    { accounts with
      users := { accounts.users with issued := accounts.users.issued + documents }
      tokens := accounts.tokens + tokens }

namespace Accounts

/-- The accounts that steps lead to when there are none yet. -/
def ofSteps (derive : String → String → String) (steps : List AccountStep) : Accounts :=
  steps.foldl (fun accounts step => step.after derive accounts) empty

variable {derive : String → String → String} {steps before : List AccountStep} {step : AccountStep}
  {roll roll' : Roll} {accounts : Accounts} {action : AccountAction} {answer : Answer}
  {name password token user : Value}

/-! ### What has been called -/

/-- Among the steps is a call that has registered the user with the password. -/
def Registered (derive : String → String → String) (steps : List AccountStep)
    (name password : Value) : Prop :=
  ∃ before later, steps = before ++ .call (.register name password) :: later ∧
    Succeeds derive (ofSteps derive before) (.register name password)

/-- A call that logs the user in after these steps yields the token. -/
def LogsIn (derive : String → String → String) (before : List AccountStep)
    (user password token : Value) : Prop :=
  Answers derive (ofSteps derive before) (.login user password) (.fields [("token", token)])

/-- A call that closes the session of the token after these steps succeeds. -/
def LogsOut (derive : String → String → String) (before : List AccountStep) (token : Value) :
    Prop :=
  Succeeds derive (ofSteps derive before) (.logout token)

/-- Among the steps is a call that has logged the user in with the token, and no later one has
closed its session. -/
def IsOpen (derive : String → String → String) (steps : List AccountStep) (token user : Value) :
    Prop :=
  ∃ before password later, steps = before ++ .call (.login user password) :: later ∧
    LogsIn derive before user password token ∧
    ∀ between rest, later = between ++ .call (.logout token) :: rest →
      ¬LogsOut derive (before ++ .call (.login user password) :: between) token

/-- Two passwords are the same text. -/
def SamePassword (password other : Value) : Prop :=
  ∃ text, encodable password = .ok text ∧ encodable other = .ok text

/-- Stored texts are the same password just when they are the same text. -/
theorem samePassword_store (text other : String) :
    SamePassword (.str (Half.store text)) (.str (Half.store other)) ↔ text = other := by
  simp [SamePassword, encodable, Half.plain?_store, eq_comm]

/-- One more step. -/
theorem ofSteps_append_singleton (steps : List AccountStep) (step : AccountStep) :
    ofSteps derive (steps ++ [step]) = step.after derive (ofSteps derive steps) := by
  rw [ofSteps, List.foldl_append]
  rfl

/-- Who is registered after one more step was so before it, or the step has done it. -/
theorem registered_append_singleton_iff :
    Registered derive (steps ++ [step]) name password ↔ Registered derive steps name password ∨
      (step = .call (.register name password) ∧
        Succeeds derive (ofSteps derive steps) (.register name password)) := by
  constructor
  · rintro ⟨before, later, hsteps, hsucceeds⟩
    rcases append_singleton_eq_append_cons_iff.mp hsteps with ⟨rfl, hstep, -⟩ | ⟨rest, -, rfl⟩
    · exact .inr ⟨hstep, hsucceeds⟩
    · exact .inl ⟨before, rest, rfl, hsucceeds⟩
  · rintro (⟨before, later, rfl, hsucceeds⟩ | ⟨rfl, hsucceeds⟩)
    · exact ⟨before, later ++ [step], by simp, hsucceeds⟩
    · exact ⟨steps, [], rfl, hsucceeds⟩

/-- A session that is open after one more step was so before it and the step has not closed it, or
the step has opened it. -/
theorem isOpen_append_singleton_iff :
    IsOpen derive (steps ++ [step]) token user ↔
      (IsOpen derive steps token user ∧
        ¬(step = .call (.logout token) ∧ LogsOut derive steps token)) ∨
      ∃ password, step = .call (.login user password) ∧
        LogsIn derive steps user password token := by
  constructor
  · rintro ⟨before, password, later, hsteps, hlogin, hkept⟩
    rcases append_singleton_eq_append_cons_iff.mp hsteps with
      ⟨rfl, hstep, -⟩ | ⟨rest, rfl, rfl⟩
    · exact .inr ⟨password, hstep, hlogin⟩
    · refine .inl ⟨⟨before, password, rest, rfl, hlogin, fun between rest' hrest => ?_⟩, ?_⟩
      · exact hkept between (rest' ++ [step]) (by rw [hrest]; simp)
      · rintro ⟨rfl, hlogout⟩
        exact hkept rest [] rfl hlogout
  · rintro (⟨⟨before, password, later, rfl, hlogin, hkept⟩, hnot⟩ | ⟨password, rfl, hlogin⟩)
    · refine ⟨before, password, later ++ [step], by simp, hlogin, fun between rest hrest => ?_⟩
      rcases append_singleton_eq_append_cons_iff.mp hrest with ⟨rfl, rfl, -⟩ | ⟨rest', -, hlater⟩
      · exact fun hlogout => hnot ⟨rfl, hlogout⟩
      · exact hkept between rest' hlater
    · exact ⟨steps, password, [], rfl, hlogin, fun between rest hrest => absurd hrest (by simp)⟩

/-! ### What the roll records -/

/-- The roll says just what the calls among the steps have brought about. -/
structure Records (derive : String → String → String) (steps : List AccountStep) (roll : Roll) :
    Prop where
  passwords_iff : ∀ name text, roll.passwords name = some text ↔
    ∃ password, Registered derive steps (.str name) password ∧ encodable password = .ok text
  sessions_iff : ∀ token user, roll.sessions token = some user ↔
    IsOpen derive steps (.str token) (.str user)

/-- A call that logs in succeeds. -/
theorem LogsIn.succeeds (h : LogsIn derive before user password token) :
    Succeeds derive (ofSteps derive before) (.login user password) :=
  ⟨_, h, Answer.not_refuses_fields (by decide) _⟩

/-- A step that comes to nothing is not recorded. -/
theorem Records.of_not_succeeds (h : Records derive steps roll)
    (hstep : ∀ action, step = .call action → ¬Succeeds derive (ofSteps derive steps) action) :
    Records derive (steps ++ [step]) roll := by
  refine ⟨fun name text => ?_, fun token user => ?_⟩
  · rw [h.passwords_iff]
    refine exists_congr fun password => and_congr_left fun _ => ?_
    rw [registered_append_singleton_iff, or_iff_left]
    exact fun ⟨hcall, hsucceeds⟩ => hstep _ hcall hsucceeds
  · rw [h.sessions_iff, isOpen_append_singleton_iff, or_iff_left, and_iff_left]
    · exact fun ⟨hcall, hlogout⟩ => hstep _ hcall hlogout
    · exact fun ⟨password, hcall, hlogin⟩ => hstep _ hcall hlogin.succeeds

/-- A call that the roll grants is recorded. -/
theorem Records.of_grants (h : Records derive steps roll)
    (hfresh : roll.sessions (ofSteps derive steps).nextToken = none)
    (hgrants : roll.Grants derive (ofSteps derive steps).nextToken action answer roll')
    (hanswers : Answers derive (ofSteps derive steps) action answer) :
    Records derive (steps ++ [.call action]) roll' := by
  have hsucceeds : Succeeds derive (ofSteps derive steps) action :=
    ⟨answer, hanswers, hgrants.not_refuses⟩
  refine ⟨fun name text => ?_, fun token user => ?_⟩
  · rw [hgrants.passwords_iff, h.passwords_iff, ← exists_or]
    refine exists_congr fun password => ?_
    rw [registered_append_singleton_iff, AccountStep.call.injEq, or_and_right]
    refine or_congr_right ⟨fun ⟨hcall, htext⟩ => ⟨⟨hcall, hcall ▸ hsucceeds⟩, htext⟩,
      fun ⟨⟨hcall, _⟩, htext⟩ => ⟨hcall, htext⟩⟩
  · rw [hgrants.sessions_iff hfresh, h.sessions_iff, isOpen_append_singleton_iff]
    refine or_congr (and_congr_right fun _ => ?_) ?_
    · refine not_congr ⟨fun hcall => ?_, fun ⟨hcall, _⟩ => AccountStep.call.inj hcall⟩
      subst hcall
      exact ⟨rfl, hsucceeds⟩
    · constructor
      · rintro ⟨⟨password, rfl⟩, rfl⟩
        obtain rfl := hgrants.answer_login
        exact ⟨password, rfl, hanswers⟩
      · rintro ⟨password, hcall, hlogin⟩
        obtain rfl := AccountStep.call.inj hcall
        obtain rfl := hgrants.answer_login
        exact ⟨⟨password, rfl⟩, Value.str.inj
          (Answer.fields_singleton_inj (Except.ok.inj (hlogin.symm.trans hanswers)))⟩

/-- Elsewhere nothing happens to the accounts. -/
theorem Represents.elsewhere (h : Represents derive roll accounts) (documents tokens : Nat) :
    Represents derive roll ((AccountStep.elsewhere documents tokens).after derive accounts) := by
  refine { h with numbered := h.numbered.mono rfl (Nat.le_add_right _ _), handed := ?_ }
  intro token user huser
  obtain ⟨n, hn, htoken⟩ := h.handed token user huser
  exact ⟨n, Nat.le_add_right_of_le hn, htoken⟩

/-- There is a roll that says what the accounts are about when there are none yet. -/
theorem represents_empty : Represents derive ⟨fun _ => none, fun _ => none⟩ empty where
  quiet := rfl
  numbered := .of_docs_eq_nil rfl
  isAccount := nofun
  passwords_iff _ _ := ⟨nofun, fun ⟨_, he, _⟩ => nomatch he⟩
  nodup := List.nodup_nil
  get?_sessions _ := rfl
  once := List.nodup_nil
  handed := nofun

/-- After any steps there is a roll that says what the accounts are about, and that says just what
the calls among the steps have brought about. -/
theorem exists_records
    (hderive : ∀ salt, Function.Injective fun password => derive password salt)
    (steps : List AccountStep) :
    ∃ roll, Represents derive roll (ofSteps derive steps) ∧ Records derive steps roll := by
  induction steps using List.reverseRecOn with
  | nil =>
    refine ⟨_, represents_empty, fun _ _ => ⟨nofun, ?_⟩, fun _ _ => ⟨nofun, ?_⟩⟩
    · rintro ⟨_, ⟨before, later, hnil, -⟩, -⟩
      exact absurd hnil (by simp)
    · rintro ⟨before, _, later, hnil, -⟩
      exact absurd hnil (by simp)
  | append_singleton steps step ih =>
    obtain ⟨roll, hrepresents, hrecords⟩ := ih
    rw [ofSteps_append_singleton]
    cases step with
    | call action =>
      rcases hrepresents.follows hderive action with
        ⟨answer, roll', accounts', hgrants, hrun, hrepresents', -⟩ | ⟨-, hnot, hrun⟩
      · refine ⟨roll', ?_, hrecords.of_grants hrepresents.sessions_nextToken hgrants
          (congrArg Prod.fst hrun)⟩
        rw [AccountStep.after, hrun]
        exact hrepresents'
      · refine ⟨roll, ?_, hrecords.of_not_succeeds ?_⟩
        · rw [AccountStep.after, hrun]
          exact hrepresents
        · intro other hother
          obtain rfl := AccountStep.call.inj hother
          exact hnot
    | elsewhere documents tokens =>
      exact ⟨roll, hrepresents.elsewhere documents tokens, hrecords.of_not_succeeds nofun⟩

/-! ### What is promised -/

section

variable (hderive : ∀ salt, Function.Injective fun password => derive password salt)

include hderive

/-- Who is registered has a name with ink and a password with bytes. -/
theorem Registered.exists_texts (h : Registered derive steps name password) :
    (∃ text, name = .str text) ∧ ∃ text, encodable password = .ok text := by
  obtain ⟨before, later, -, hsucceeds⟩ := h
  obtain ⟨roll, hrepresents, -⟩ := exists_records hderive before
  obtain ⟨answer, roll', hgrants⟩ := (hrepresents.succeeds_iff hderive).mp hsucceeds
  cases hgrants with
  | register _ _ htext => exact ⟨⟨_, rfl⟩, _, htext⟩

/-- A name is free just when nobody has registered with it. -/
theorem Records.passwords_eq_none_iff (h : Records derive steps roll) (name : String) :
    roll.passwords name = none ↔ ∀ password, ¬Registered derive steps (.str name) password := by
  rw [Option.eq_none_iff_forall_ne_some]
  constructor
  · intro hnone password hregistered
    obtain ⟨-, text, htext⟩ := hregistered.exists_texts hderive
    exact hnone text ((h.passwords_iff name text).mpr ⟨password, hregistered, htext⟩)
  · intro hnone text htext
    obtain ⟨password, hregistered, -⟩ := (h.passwords_iff name text).mp htext
    exact hnone password hregistered

/-- Who logs in is a text, and gets the next token. -/
theorem LogsIn.eq_nextToken (h : LogsIn derive before user password token) :
    (∃ text, user = .str text) ∧ token = .str (ofSteps derive before).nextToken := by
  obtain ⟨roll, hrepresents, -⟩ := exists_records hderive before
  obtain ⟨roll', hgrants⟩ :=
    (hrepresents.answers_iff hderive (Answer.not_refuses_fields (by decide) _)).mp h
  refine ⟨?_, Answer.fields_singleton_inj hgrants.answer_login⟩
  cases hgrants with
  | login => exact ⟨_, rfl⟩

/-- A session that is open is that of a text under a text. -/
theorem IsOpen.exists_texts (h : IsOpen derive steps token user) :
    (∃ text, token = .str text) ∧ ∃ text, user = .str text := by
  obtain ⟨before, password, later, -, hlogin, -⟩ := h
  obtain ⟨huser, htoken⟩ := hlogin.eq_nextToken hderive
  exact ⟨⟨_, htoken⟩, huser⟩

/-- Numbers of tokens are handed out once. -/
theorem tokens_le_append (before later : List AccountStep) :
    (ofSteps derive before).tokens ≤ (ofSteps derive (before ++ later)).tokens := by
  induction later using List.reverseRecOn with
  | nil => exact Nat.le_of_eq (by rw [List.append_nil])
  | append_singleton later step ih =>
    rw [← List.append_assoc, ofSteps_append_singleton]
    refine Nat.le_trans ih ?_
    cases step with
    | call action =>
      obtain ⟨roll, hrepresents, -⟩ := exists_records hderive (before ++ later)
      rcases hrepresents.follows hderive action with
        ⟨_, _, accounts', -, hrun, -, htokens⟩ | ⟨-, -, hrun⟩
      · rw [AccountStep.after, hrun]
        exact htokens
      · exact Nat.le_of_eq (congrArg Accounts.tokens hrun.symm)
    | elsewhere documents tokens => exact Nat.le_add_right _ _

/-- With a session its number is handed out. -/
theorem LogsIn.tokens_lt (h : LogsIn derive before user password token) :
    (ofSteps derive before).tokens
      < (ofSteps derive (before ++ [.call (.login user password)])).tokens := by
  obtain ⟨⟨name, rfl⟩, rfl⟩ := h.eq_nextToken hderive
  obtain ⟨roll, hrepresents, hrecords⟩ :=
    exists_records hderive (before ++ [.call (.login (.str name) password)])
  have hopen : IsOpen derive (before ++ [.call (.login (.str name) password)])
      (.str (ofSteps derive before).nextToken) (.str name) :=
    isOpen_append_singleton_iff.mpr (.inr ⟨password, rfl, h⟩)
  obtain ⟨n, hn, htoken⟩ := hrepresents.handed _ _ ((hrecords.sessions_iff _ _).mpr hopen)
  have := tokenText_inj htoken
  omega

/-- No two sessions get the same token. -/
theorem LogsIn.ne_of_later {later : List AccountStep} {user' password' token' : Value}
    (h : LogsIn derive before user password token)
    (h' : LogsIn derive (before ++ .call (.login user password) :: later) user' password' token') :
    token ≠ token' := by
  rintro rfl
  have hlt := h.tokens_lt hderive
  have hle := tokens_le_append hderive (before ++ [.call (.login user password)]) later
  rw [List.append_assoc, List.singleton_append] at hle
  have hsame := (h.eq_nextToken hderive).2.symm.trans (h'.eq_nextToken hderive).2
  have := tokenText_inj (Value.str.inj hsame)
  omega

/-- To register takes a name that is not blank and not taken, and a password that is not empty and
has bytes. -/
theorem succeeds_register_iff :
    Succeeds derive (ofSteps derive steps) (.register name password) ↔
      name.isBlankName = .ok false ∧ password.truthy = true ∧
        (∃ text, encodable password = .ok text) ∧
        ∀ other, ¬Registered derive steps name other := by
  obtain ⟨roll, hrepresents, hrecords⟩ := exists_records hderive steps
  rw [hrepresents.succeeds_iff hderive]
  constructor
  · rintro ⟨answer, roll', hgrants⟩
    cases hgrants with
    | @register name text _ hink hpassword htext hnew =>
      exact ⟨Value.isBlankName_eq_ok_false_iff.mpr ⟨name, rfl, hink⟩, hpassword, ⟨text, htext⟩,
        (hrecords.passwords_eq_none_iff hderive name).mp hnew⟩
  · rintro ⟨hname, hpassword, ⟨text, htext⟩, hnew⟩
    obtain ⟨name, rfl, hink⟩ := Value.isBlankName_eq_ok_false_iff.mp hname
    exact ⟨_, _, .register hink hpassword htext
      ((hrecords.passwords_eq_none_iff hderive name).mpr hnew)⟩

/-- To log in takes the password that the user has registered with. -/
theorem exists_logsIn_iff : (∃ token, LogsIn derive steps user password token) ↔
    ∃ registered, Registered derive steps user registered ∧ SamePassword password registered := by
  obtain ⟨roll, hrepresents, hrecords⟩ := exists_records hderive steps
  have hlogin : ∀ token, LogsIn derive steps user password token ↔ _ := fun token =>
    hrepresents.answers_iff hderive (Answer.not_refuses_fields (by decide) _)
  constructor
  · rintro ⟨token, htoken⟩
    obtain ⟨roll', hgrants⟩ := (hlogin token).mp htoken
    cases hgrants with
    | login htext hregistered =>
      obtain ⟨registered, hcalled, hsame⟩ := (hrecords.passwords_iff _ _).mp hregistered
      exact ⟨registered, hcalled, _, htext, hsame⟩
  · rintro ⟨registered, hcalled, text, htext, hsame⟩
    obtain ⟨⟨name, rfl⟩, -⟩ := hcalled.exists_texts hderive
    exact ⟨_, (hlogin _).mpr ⟨_, .login htext
      ((hrecords.passwords_iff name text).mpr ⟨registered, hcalled, hsame⟩)⟩⟩

/-- A token is verified as that of who has logged in with it and not out again. -/
theorem answers_verify_iff :
    Answers derive (ofSteps derive steps) (.verify token) (.fields [("user", user)]) ↔
      IsOpen derive steps token user := by
  obtain ⟨roll, hrepresents, hrecords⟩ := exists_records hderive steps
  rw [hrepresents.answers_iff hderive (Answer.not_refuses_fields (by decide) _)]
  constructor
  · rintro ⟨roll', hgrants⟩
    obtain ⟨known, name, rfl, hopen, hanswer⟩ := hgrants.exists_of_verify
    obtain rfl := Answer.fields_singleton_inj hanswer
    exact (hrecords.sessions_iff known name).mp hopen
  · intro hopen
    obtain ⟨⟨known, rfl⟩, name, rfl⟩ := hopen.exists_texts hderive
    exact ⟨roll, .verify ((hrecords.sessions_iff known name).mpr hopen)⟩

/-- Any other one that can be a key is refused. -/
theorem answers_verify_refusal (hhashable : token.hashable = true)
    (hclosed : ∀ user, ¬IsOpen derive steps token user) :
    Answers derive (ofSteps derive steps) (.verify token) (.refusal "invalid token") := by
  obtain ⟨roll, hrepresents, hrecords⟩ := exists_records hderive steps
  have hnone : roll.holder? token = none := by
    refine Option.eq_none_iff_forall_ne_some.mpr fun name hname => ?_
    obtain ⟨known, rfl, -, hopen⟩ := hrepresents.exists_str_of_holder? hname
    exact hclosed _ ((hrecords.sessions_iff known name).mp hopen)
  refine (congrArg Prod.fst (hrepresents.run_verify token)).trans ?_
  simp [hnone, hhashable]

/-- To log out takes a token that would be verified. -/
theorem logsOut_iff : LogsOut derive steps token ↔
    Succeeds derive (ofSteps derive steps) (.verify token) := by
  obtain ⟨roll, hrepresents, -⟩ := exists_records hderive steps
  rw [LogsOut, hrepresents.succeeds_iff hderive, hrepresents.succeeds_iff hderive]
  constructor
  · rintro ⟨_, _, hgrants⟩
    cases hgrants with
    | logout hopen => exact ⟨_, _, .verify hopen⟩
  · rintro ⟨_, _, hgrants⟩
    cases hgrants with
    | verify hopen => exact ⟨_, _, .logout hopen⟩

/-- The documents are those of the users who have registered. -/
theorem exists_username_iff :
    (∃ entry ∈ (ofSteps derive steps).users.docs, Table.get? "username" entry.2 = some name) ↔
      ∃ password, Registered derive steps name password := by
  obtain ⟨roll, hrepresents, hrecords⟩ := exists_records hderive steps
  constructor
  · rintro ⟨entry, he, hname⟩
    obtain ⟨text, password, haccount⟩ := hrepresents.isAccount entry he
    obtain rfl := Option.some.inj (haccount.username.symm.trans hname)
    obtain ⟨registered, hcalled, -⟩ := (hrecords.passwords_iff text password).mp
      ((hrepresents.passwords_iff text password).mpr ⟨entry, he, haccount⟩)
    exact ⟨registered, hcalled⟩
  · rintro ⟨password, hcalled⟩
    obtain ⟨⟨text, rfl⟩, plain, hplain⟩ := hcalled.exists_texts hderive
    obtain ⟨entry, he, haccount⟩ := (hrepresents.passwords_iff text plain).mp
      ((hrecords.passwords_iff text plain).mpr ⟨password, hcalled, hplain⟩)
    exact ⟨entry, he, haccount.username⟩

end

/-- What is promised of the accounts after steps. -/
structure Honors (derive : String → String → String) (steps : List AccountStep) : Prop where
  /-- The documents are those of the users who have registered, -/
  documents_iff : ∀ name,
    (∃ entry ∈ (ofSteps derive steps).users.docs, Table.get? "username" entry.2 = some name) ↔
      ∃ password, Registered derive steps name password
  /-- each under a name of their own, -/
  nodup : ((ofSteps derive steps).users.docs.map fun entry =>
    Table.get? "username" entry.2).Nodup
  /-- with which nobody has registered twice. -/
  once : ∀ before name password between other later,
    steps = before ++ .call (.register name password) ::
      (between ++ .call (.register name other) :: later) →
    ¬(Succeeds derive (ofSteps derive before) (.register name password) ∧
      Succeeds derive (ofSteps derive (before ++ .call (.register name password) :: between))
        (.register name other))
  /-- To register takes a name that is not blank and not taken, and a password that is not empty and
  has bytes. -/
  register_iff : ∀ name password,
    Succeeds derive (ofSteps derive steps) (.register name password) ↔
      name.isBlankName = .ok false ∧ password.truthy = true ∧
        (∃ text, encodable password = .ok text) ∧
        ∀ other, ¬Registered derive steps name other
  /-- To log in takes the password that the user has registered with, -/
  login_iff : ∀ user password, (∃ token, LogsIn derive steps user password token) ↔
    ∃ registered, Registered derive steps user registered ∧ SamePassword password registered
  /-- and yields a token that nobody has got before. -/
  fresh : ∀ user password token, LogsIn derive steps user password token →
    ∀ before user' password' later, steps = before ++ .call (.login user' password') :: later →
      ¬LogsIn derive before user' password' token
  /-- A token is verified as that of who has logged in with it and not out again; -/
  verify_iff : ∀ token user,
    Answers derive (ofSteps derive steps) (.verify token) (.fields [("user", user)]) ↔
      IsOpen derive steps token user
  /-- any other one that can be a key is refused. -/
  verify_otherwise : ∀ token, token.hashable = true → (∀ user, ¬IsOpen derive steps token user) →
    Answers derive (ofSteps derive steps) (.verify token) (.refusal "invalid token")
  /-- To log out takes a token that would be verified. -/
  logout_iff : ∀ token, LogsOut derive steps token ↔
    Succeeds derive (ofSteps derive steps) (.verify token)
  /-- A call that refuses or ends in a fault changes nothing; -/
  unchanged : ∀ action, ¬Succeeds derive (ofSteps derive steps) action →
    (AccountStep.call action).after derive (ofSteps derive steps) = ofSteps derive steps
  /-- no call changes whose a token is that it neither hands out nor closes the session of. -/
  others : ∀ action token, action ≠ .logout token →
    ¬Answers derive (ofSteps derive steps) action (.fields [("token", token)]) →
    userOf token ((AccountStep.call action).after derive (ofSteps derive steps))
      = userOf token (ofSteps derive steps)

/-- Whatever is called, and in whichever order, the accounts keep what is promised, if different
passwords give different keys. -/
theorem ofSteps_honors
    (hderive : ∀ salt, Function.Injective fun password => derive password salt)
    (steps : List AccountStep) : Honors derive steps := by
  obtain ⟨roll, hrepresents, -⟩ := exists_records hderive steps
  refine ⟨fun name => exists_username_iff hderive, hrepresents.nodup, ?_,
    fun name password => succeeds_register_iff hderive,
    fun user password => exists_logsIn_iff hderive, ?_,
    fun token user => answers_verify_iff hderive,
    fun token => answers_verify_refusal hderive, fun token => logsOut_iff hderive, ?_, ?_⟩
  · rintro before name password between other later rfl ⟨hfirst, hsecond⟩
    have hregistered : Registered derive (before ++ .call (.register name password) :: between)
        name password := ⟨before, between, rfl, hfirst⟩
    exact ((succeeds_register_iff hderive).mp hsecond).2.2.2 password hregistered
  · rintro user password token hlogin before user' password' later rfl hearlier
    exact hearlier.ne_of_later hderive hlogin rfl
  · intro action hnot
    rcases hrepresents.follows hderive action with ⟨answer, _, _, hgrants, hrun, -⟩ | ⟨-, -, hrun⟩
    · exact absurd ⟨answer, congrArg Prod.fst hrun, hgrants.not_refuses⟩ hnot
    · exact hrun
  · intro action token hclosed hopened
    rcases hrepresents.follows hderive action with
      ⟨answer, roll', accounts', hgrants, hrun, hrepresents', -⟩ | ⟨-, -, hrun⟩
    · have hanswer : answer ≠ .fields [("token", token)] := fun hsame =>
        hopened (hsame ▸ congrArg Prod.fst hrun)
      have hholder := hgrants.holder?_eq hrepresents.sessions_nextToken hclosed hanswer
      rw [AccountStep.after, hrun, hrepresents'.userOf_eq, hrepresents.userOf_eq, hholder]
    · rw [AccountStep.after, hrun]

/-- The salt with the password after it, from which the password can be read. -/
def salted (password salt : String) : String := salt ++ password

/-- A user registers, logs in twice and out once; somebody else tries the name with another
password. -/
def twoSessions : List AccountStep :=
  [.call (.register (.str "alice") (.str "pw")), .call (.register (.str "alice") (.str "other")),
    .call (.login (.str "alice") (.str "pw")), .call (.login (.str "alice") (.str "other")),
    .call (.login (.str "alice") (.str "pw")), .call (.logout (.str "tok-1"))]

/-- The second session is still open, and the first one is not. -/
theorem ofSteps_honors_twoSessions :
    (∀ salt, Function.Injective fun password => salted password salt) ∧
      Answers salted (ofSteps salted twoSessions) (.verify (.str "tok-2"))
        (.fields [("user", .str "alice")]) ∧
      Answers salted (ofSteps salted twoSessions) (.verify (.str "tok-1"))
        (.refusal "invalid token") ∧
      Honors salted twoSessions := by
  have hsalted : ∀ salt, Function.Injective fun password => salted password salt :=
    fun salt _ _ h => (String.append_right_inj salt).mp h
  exact ⟨hsalted, rfl, rfl, ofSteps_honors hsalted _⟩

end Accounts

end HerdBook
