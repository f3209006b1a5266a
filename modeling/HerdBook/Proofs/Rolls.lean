import HerdBook.Proofs.Atomicity
import HerdBook.Proofs.Numbering
import HerdBook.Proofs.Sameness
import Mathlib.Logic.Function.Basic

/-!
# What accounts are about

The accounts are documents with salts and derived keys, and a table of sessions. What they are about
is less: which user has which password, and which token belongs to whom (`Roll`). Whatever is asked
of the accounts is asked of this roll: either the roll grants it, and then the accounts answer as
the roll does and are about what the roll says afterwards, or it comes to nothing on both.

That two passwords differ shows in the derived keys alone. So keys that are derived with one salt
from different passwords are taken to differ. That a new token is not in use is not assumed, since
tokens are numbered.

* `Roll.Grants`: what an action on a roll does when it succeeds.
* `Accounts.Represents`: the accounts are about what the roll says.

## Main results

* `Roll.Grants.passwords_iff`, `Roll.Grants.sessions_iff`: what a roll says after an action.
* `Accounts.Represents.follows`: whatever is asked of the accounts does what it does on the roll, or
  comes to nothing.
* `Accounts.Represents.answers_iff`, `Accounts.Represents.succeeds_iff`: so the roll tells what they
  answer.
-/

namespace HerdBook

open Effect

/-- What is the same as a text is this text. -/
theorem Value.same_text_iff {text : String} {v : Value} :
    (Value.str text).same v = true ↔ v = .str text := by
  cases v with
  | str other => exact beq_iff_eq.trans ⟨fun h => h ▸ rfl, fun h => (Value.str.inj h).symm⟩
  | _ => simp [same, sameAmount, amount?]

namespace Store

variable {store : Store}

/-- Where no operation is due to fail, none does. -/
theorem run_enter_of_quiet (h : store.failing = []) (op : Operation) :
    (enter op).run store = (.ok (), store) := by
  rw [enter, run_ofStep, h]
  rfl

/-- The first document is found that satisfies the criteria. -/
theorem run_findOne_of_quiet (h : store.failing = []) (criteria : Fields) :
    (findOne criteria).run store
      = (.ok ((store.docs.map (·.2)).find? (satisfies criteria)), store) := by
  have hfind : (find criteria).run store = (.ok (store.matching criteria), store) := by
    rw [find, run_bind_ok (run_enter_of_quiet h _)]
    rfl
  rw [findOne, run_bind_ok (run_enter_of_quiet h _), run_bind_ok hfind, run_pure, matching,
    List.head?_filter]

end Store

/-! ### Passwords and keys -/

/-- The digits of a number are below the halves. -/
theorem toNat_lt_of_mem_toString {n : Nat} {c : Char} (h : c ∈ (toString n).toList) :
    c.toNat < 0xD800 := by
  have hdigits : c ∈ Nat.toDigits 10 n := by simpa [Nat.repr] using h
  have hdigit := Nat.isDigit_of_mem_toDigits (by decide) (by decide) hdigits
  have hnine : c.toNat ≤ 57 :=
    UInt32.le_iff_toNat_le.mp (of_decide_eq_true (Bool.and_eq_true_iff.mp hdigit).2)
  omega

namespace Accounts

/-- The salt of the next account has bytes. -/
theorem exists_encodable_nextSalt (accounts : Accounts) :
    ∃ salt, encodable accounts.nextSalt = .ok salt := by
  have hplain : Half.plain? ("salt-" ++ toString (accounts.users.issued + 1))
      = some ("salt-" ++ toString (accounts.users.issued + 1)) := by
    refine Half.plain?_eq_self fun c hc => ?_
    rw [String.toList_append] at hc
    rcases List.mem_append.mp hc with hc | hc
    · have hword : ("salt-".toList.all fun c => c.toNat < 0xD800) = true := by decide
      exact of_decide_eq_true (List.all_eq_true.mp hword c hc)
    · exact toNat_lt_of_mem_toString hc
  exact ⟨_, by rw [nextSalt, encodable, hplain]⟩

/-- A key is derived from two texts that have bytes. -/
theorem keyOf_eq_ok_iff {derive : String → String → String} {password salt key : Value} :
    keyOf derive password salt = .ok key ↔ ∃ text plain, encodable password = .ok text ∧
      encodable salt = .ok plain ∧ key = .str (derive text plain) := by
  simp only [keyOf, bind_eq_ok_iff]
  constructor
  · rintro ⟨text, htext, plain, hplain, hkey⟩
    exact ⟨text, plain, htext, hplain, (Except.ok.inj hkey).symm⟩
  · rintro ⟨text, plain, htext, hplain, rfl⟩
    exact ⟨text, htext, plain, hplain, rfl⟩

end Accounts

/-! ### What accounts are about -/

/-- Two answers of one field have the same value in it when they are the same. -/
theorem Answer.fields_singleton_inj {name : String} {v w : Value}
    (h : fields [(name, v)] = fields [(name, w)]) : v = w := by
  simpa [fields] using h

/-- What accounts are about: the password of each user, by name, and the user of each open session,
by token. -/
structure Roll where
  passwords : String → Option String
  sessions : String → Option String

namespace Roll

open Accounts in
/-- The action succeeds with the answer, and leaves the other roll. If it opens a session, this gets
the token. -/
inductive Grants (derive : String → String → String) (token : String) (roll : Roll) :
    AccountAction → Answer → Roll → Prop
  | register {name text : String} {password : Value} (hname : hasInk name = true)
      (hpassword : password.truthy = true) (htext : encodable password = .ok text)
      (hnew : roll.passwords name = none) :
      Grants derive token roll (.register (.str name) password) (.fields [("user", .str name)])
        { roll with passwords := Function.update roll.passwords name (some text) }
  | login {name text : String} {password : Value} (htext : encodable password = .ok text)
      (hregistered : roll.passwords name = some text) :
      Grants derive token roll (.login (.str name) password) (.fields [("token", .str token)])
        { roll with sessions := Function.update roll.sessions token (some name) }
  | verify {known user : String} (hopen : roll.sessions known = some user) :
      Grants derive token roll (.verify (.str known)) (.fields [("user", .str user)]) roll
  | logout {known user : String} (hopen : roll.sessions known = some user) :
      Grants derive token roll (.logout (.str known)) .done
        { roll with sessions := Function.update roll.sessions known none }
  | username {name text : String} (hregistered : roll.passwords name = some text) :
      Grants derive token roll (.username (.str name)) (.fields [("username", .str name)]) roll
  | deriveKey {password salt key : Value} (hkey : keyOf derive password salt = .ok key) :
      Grants derive token roll (.deriveKey password salt) ⟨key, []⟩ roll

/-- Whom a token belongs to. -/
def holder? (roll : Roll) : Value → Option String
  | .str token => roll.sessions token
  | _ => none

/-- What cannot be a key belongs to nobody. -/
theorem holder?_eq_none_of_not_hashable (roll : Roll) {token : Value}
    (h : token.hashable = false) : roll.holder? token = none := by
  cases token with
  | str => exact nomatch h
  | _ => rfl

variable {derive : String → String → String} {token : String} {roll roll' : Roll}
  {action : AccountAction} {answer : Answer}

/-- Who is registered afterwards was so before, or has just been registered. -/
theorem Grants.passwords_iff (h : roll.Grants derive token action answer roll')
    {name text : String} : roll'.passwords name = some text ↔ roll.passwords name = some text ∨
      ∃ password, action = .register (.str name) password ∧
        Accounts.encodable password = .ok text := by
  cases h with
  | @register other text' password _ _ htext hnew =>
    change Function.update roll.passwords other (some text') name = some text ↔ _
    rw [Function.update_apply]
    split
    · next hname =>
      subst hname
      rw [hnew, Option.some.injEq]
      constructor
      · rintro rfl
        exact .inr ⟨password, rfl, htext⟩
      · rintro (hold | ⟨_, hsame, htext'⟩)
        · exact nomatch hold
        · obtain ⟨-, rfl⟩ := AccountAction.register.inj hsame
          exact Except.ok.inj (htext.symm.trans htext')
    · next hname =>
      refine ⟨.inl, ?_⟩
      rintro (hold | ⟨_, hsame, -⟩)
      · exact hold
      · exact absurd (Value.str.inj (AccountAction.register.inj hsame).1).symm hname
  | login | verify | logout | username | deriveKey =>
    exact ⟨.inl, fun hor => hor.resolve_right fun ⟨_, hsame, _⟩ => nomatch hsame⟩

/-- The session that is open afterwards was so before and has not been closed, or has just been
opened, where the token was not in use. -/
theorem Grants.sessions_iff (h : roll.Grants derive token action answer roll')
    (hfresh : roll.sessions token = none) {other user : String} :
    roll'.sessions other = some user ↔
      (roll.sessions other = some user ∧ action ≠ .logout (.str other)) ∨
      ((∃ password, action = .login (.str user) password) ∧ other = token) := by
  cases h with
  | @login name =>
    change Function.update roll.sessions token (some name) other = some user ↔ _
    rw [Function.update_apply]
    split
    · next hother =>
      subst hother
      rw [hfresh, Option.some.injEq]
      constructor
      · rintro rfl
        exact .inr ⟨⟨_, rfl⟩, rfl⟩
      · rintro (⟨hold, -⟩ | ⟨⟨_, hsame⟩, -⟩)
        · exact nomatch hold
        · exact Value.str.inj (AccountAction.login.inj hsame).1
    · next hother =>
      exact ⟨fun hold => .inl ⟨hold, nofun⟩, fun hor =>
        (hor.resolve_right fun hnew => hother hnew.2).1⟩
  | @logout closed =>
    change Function.update roll.sessions closed none other = some user ↔ _
    rw [Function.update_apply]
    split
    · next hother =>
      subst hother
      exact ⟨nofun, by rintro (⟨-, hne⟩ | ⟨⟨_, hsame⟩, -⟩) <;> contradiction⟩
    · next hother =>
      refine ⟨fun hold => .inl ⟨hold, fun hsame => ?_⟩, fun hor =>
        (hor.resolve_right fun ⟨⟨_, hsame⟩, _⟩ => nomatch hsame).1⟩
      exact hother (Value.str.inj (AccountAction.logout.inj hsame)).symm
  | register | verify | username | deriveKey =>
    exact ⟨fun hold => .inl ⟨hold, nofun⟩, fun hor =>
      (hor.resolve_right fun ⟨⟨_, hsame⟩, _⟩ => nomatch hsame).1⟩

/-- There is one answer to what succeeds. -/
theorem Grants.answer_unique {answer' : Answer} {roll'' : Roll}
    (h : roll.Grants derive token action answer roll')
    (h' : roll.Grants derive token action answer' roll'') : answer = answer' := by
  cases h with
  | register | login | logout | username =>
    cases h'
    rfl
  | verify hopen =>
    cases h' with
    | verify hopen' => rw [Option.some.inj (hopen.symm.trans hopen')]
  | deriveKey hkey =>
    cases h' with
    | deriveKey hkey' => rw [Except.ok.inj (hkey.symm.trans hkey')]

/-- Logging in is answered with the token. -/
theorem Grants.answer_login {name password : Value}
    (h : roll.Grants derive token (.login name password) answer roll') :
    answer = .fields [("token", .str token)] := by
  cases h
  rfl

/-- What is verified is a token whose session is open. -/
theorem Grants.exists_of_verify {known : Value}
    (h : roll.Grants derive token (.verify known) answer roll') : ∃ text user,
      known = .str text ∧ roll.sessions text = some user ∧
        answer = .fields [("user", .str user)] := by
  cases h with
  | verify hopen => exact ⟨_, _, rfl, hopen, rfl⟩

/-- Nothing happens to other tokens than the one that is handed out, or whose session is closed. -/
theorem Grants.holder?_eq (h : roll.Grants derive token action answer roll')
    (hfresh : roll.sessions token = none) {other : Value} (hclosed : action ≠ .logout other)
    (hopened : answer ≠ .fields [("token", other)]) : roll'.holder? other = roll.holder? other := by
  cases other with
  | str other =>
    refine Option.ext fun user => ?_
    change roll'.sessions other = some user ↔ roll.sessions other = some user
    rw [h.sessions_iff hfresh, or_iff_left, and_iff_left hclosed]
    rintro ⟨⟨password, rfl⟩, rfl⟩
    exact hopened h.answer_login
  | _ => rfl

/-- What succeeds is no refusal. -/
theorem Grants.not_refuses (h : roll.Grants derive token action answer roll') :
    ¬answer.Refuses := by
  cases h with
  | register | login | verify | username => exact Answer.not_refuses_fields (by decide) _
  | logout => exact Answer.not_refuses_done
  | @deriveKey password salt key hkey =>
    obtain ⟨text, salt, -, -, rfl⟩ := Accounts.keyOf_eq_ok_iff.mp hkey
    exact Bool.false_ne_true

end Roll

namespace Accounts

/-! ### The accounts of a roll -/

/-- The document is the account of the user with the password. -/
structure IsAccount (derive : String → String → String) (name text : String) (doc : Fields) :
    Prop where
  username : Table.get? "username" doc = some (.str name)
  hash : ∃ salt plain, Table.get? "salt" doc = some salt ∧ encodable salt = .ok plain ∧
    Table.get? "hash" doc = some (.str (derive text plain))

/-- The token that the next session gets. -/
def nextToken (accounts : Accounts) : String := tokenText (accounts.tokens + 1)

/-- The accounts are about what the roll says, and no operation of their store is due to fail. -/
structure Represents (derive : String → String → String) (roll : Roll) (accounts : Accounts) :
    Prop where
  quiet : accounts.users.failing = []
  numbered : accounts.users.Numbered
  isAccount : ∀ entry ∈ accounts.users.docs, ∃ name text, IsAccount derive name text entry.2
  passwords_iff : ∀ name text, roll.passwords name = some text ↔
    ∃ entry ∈ accounts.users.docs, IsAccount derive name text entry.2
  nodup : (accounts.users.docs.map fun entry => Table.get? "username" entry.2).Nodup
  get?_sessions : ∀ token,
    Table.get? token accounts.sessions = (roll.sessions token).map Value.str
  once : (Table.keys accounts.sessions).Nodup
  handed : ∀ token user, roll.sessions token = some user →
    ∃ n ≤ accounts.tokens, token = tokenText n

/-- The action has the answer. -/
def Answers (derive : String → String → String) (accounts : Accounts) (action : AccountAction)
    (answer : Answer) : Prop :=
  ((action.run derive).run accounts).1 = .ok answer

/-- The action is a success: it has an answer, which is no refusal. -/
def Succeeds (derive : String → String → String) (accounts : Accounts) (action : AccountAction) :
    Prop :=
  ∃ answer, Answers derive accounts action answer ∧ ¬answer.Refuses

/-- The action does to the accounts what it does to the roll, or it comes to nothing on both. -/
def Follows (derive : String → String → String) (roll : Roll) (accounts : Accounts)
    (action : AccountAction) : Prop :=
  (∃ answer roll' accounts', roll.Grants derive accounts.nextToken action answer roll' ∧
    (action.run derive).run accounts = (.ok answer, accounts') ∧
    Represents derive roll' accounts' ∧ accounts.tokens ≤ accounts'.tokens) ∨
  ((∀ answer roll', ¬roll.Grants derive accounts.nextToken action answer roll') ∧
    ¬Succeeds derive accounts action ∧ ((action.run derive).run accounts).2 = accounts)

variable {derive : String → String → String} {roll : Roll} {accounts : Accounts}

/-- Tokens of different numbers differ. -/
theorem tokenText_inj {m n : Nat} (h : tokenText m = tokenText n) : m = n :=
  toString_inj_of_append h

/-- The next token is not in use. -/
theorem Represents.sessions_nextToken (h : Represents derive roll accounts) :
    roll.sessions accounts.nextToken = none := by
  refine Option.eq_none_iff_forall_ne_some.mpr fun user huser => ?_
  obtain ⟨n, hn, htoken⟩ := h.handed _ user huser
  have := tokenText_inj htoken
  omega

/-- Whose account a document is, and with which password, is one thing. -/
theorem IsAccount.unique {name name' text text' : String} {doc : Fields}
    (hderive : ∀ salt, Function.Injective fun password => derive password salt)
    (h : IsAccount derive name text doc) (h' : IsAccount derive name' text' doc) :
    name = name' ∧ text = text' := by
  obtain ⟨salt, plain, hsalt, hplain, hhash⟩ := h.hash
  obtain ⟨salt', plain', hsalt', hplain', hhash'⟩ := h'.hash
  obtain rfl := Option.some.inj (hsalt.symm.trans hsalt')
  obtain rfl := Except.ok.inj (hplain.symm.trans hplain')
  refine ⟨Value.str.inj (Option.some.inj (h.username.symm.trans h'.username)), hderive plain ?_⟩
  exact Value.str.inj (Option.some.inj (hhash.symm.trans hhash'))

/-- A run on the documents of the users is one on the accounts. -/
theorem run_onUsers {α : Type} {act : Effect Store α} {outcome : Except Fault α} {users : Store}
    (h : act.run accounts.users = (outcome, users)) :
    (onUsers act).run accounts = (outcome, { accounts with users := users }) := by
  rw [onUsers, run_focus, h]

/-- A user is looked up by a name, and found if it is registered. -/
theorem Represents.exists_found (h : Represents derive roll accounts) (name : Value) :
    ∃ found, (onUsers (Store.findOne [("username", name)])).run accounts = (.ok found, accounts) ∧
      match found with
      | none => ∀ text, name = .str text → roll.passwords text = none
      | some doc => ∃ text password, name = .str text ∧ roll.passwords text = some password ∧
          IsAccount derive text password doc := by
  have hmatches : ∀ {text password : String} {doc : Fields}, IsAccount derive text password doc →
      (Store.satisfies [("username", name)] doc = true ↔ name = .str text) := by
    intro text password doc hdoc
    simp [Store.satisfies, hdoc.username, Value.same_text_iff]
  refine ⟨_, run_onUsers (Store.run_findOne_of_quiet h.quiet _), ?_⟩
  split
  · next hnone =>
    rintro text rfl
    refine Option.eq_none_iff_forall_ne_some.mpr fun password hpassword => ?_
    obtain ⟨entry, he, hdoc⟩ := (h.passwords_iff text password).mp hpassword
    exact List.find?_eq_none.mp hnone entry.2 (List.mem_map_of_mem he) (hmatches hdoc |>.mpr rfl)
  · next doc hsome =>
    obtain ⟨entry, he, rfl⟩ := List.mem_map.mp (List.mem_of_find?_eq_some hsome)
    obtain ⟨text, password, hdoc⟩ := h.isAccount entry he
    exact ⟨text, password, (hmatches hdoc).mp (List.find?_some hsome),
      (h.passwords_iff text password).mpr ⟨entry, he, hdoc⟩, hdoc⟩

/-! ### What actions do -/

/-- An action that the roll does not grant comes to nothing. -/
theorem follows_of_nothing {action : AccountAction} (outcome : Except Fault Answer)
    (hgrants : ∀ answer roll', ¬roll.Grants derive accounts.nextToken action answer roll')
    (hrun : (action.run derive).run accounts = (outcome, accounts))
    (hrefuses : ∀ answer, outcome = .ok answer → answer.Refuses) :
    Follows derive roll accounts action := by
  refine .inr ⟨hgrants, ?_, congrArg Prod.snd hrun⟩
  rintro ⟨answer, ha, hnot⟩
  exact hnot (hrefuses answer ((congrArg Prod.fst hrun).symm.trans ha))

/-- The last part of registering, where nobody has the name. -/
def enroll (derive : String → String → String) (name : String) (password : Value) :
    Effect Accounts Answer := do
  let salt := nextSalt (← get)
  let key ← Effect.ofExcept (keyOf derive password salt)
  let _ ← onUsers (Store.insert [("username", .str name), ("salt", salt), ("hash", key)])
  return .fields [("user", .str name)]

/-- The part of registering in which the name is looked up. -/
def enrollOnce (derive : String → String → String) (name : String) (password : Value) :
    Effect Accounts Answer := do
  match ← onUsers (Store.findOne [("username", .str name)]) with
  | some _ =>
    let name ← textOf (.str name)
    return .refusal s!"Username '{name}' is already taken."
  | none => enroll derive name password

/-- What is stored of a new user is its account. -/
theorem Represents.grown (h : Represents derive roll accounts)
    (hderive : ∀ salt, Function.Injective fun password => derive password salt)
    {name text : String} (doc : Fields) (hnew : roll.passwords name = none)
    (hdoc : IsAccount derive name text
      (Table.set "_id" (.str (Store.docId (accounts.users.issued + 1))) doc)) :
    Represents derive { roll with passwords := Function.update roll.passwords name (some text) }
      { accounts with users := accounts.users.grown doc } := by
  obtain ⟨added, hadded⟩ : ∃ added, added = (Store.docId (accounts.users.issued + 1),
      Table.set "_id" (.str (Store.docId (accounts.users.issued + 1))) doc) := ⟨_, rfl⟩
  have hdocs : (accounts.users.grown doc).docs = accounts.users.docs ++ [added] := hadded ▸ rfl
  replace hdoc : IsAccount derive name text added.2 := hadded ▸ hdoc
  have hiff : ∀ other password, (∃ entry ∈ accounts.users.docs ++ [added],
      IsAccount derive other password entry.2) ↔
        roll.passwords other = some password ∨ IsAccount derive other password added.2 := by
    intro other password
    simp [h.passwords_iff, or_and_right, exists_or]
  refine { h with
    numbered := h.numbered.grown doc, isAccount := ?_, passwords_iff := ?_, nodup := ?_ }
  · rw [hdocs]
    intro entry he
    rcases List.mem_append.mp he with he | he
    · exact h.isAccount entry he
    · exact List.mem_singleton.mp he ▸ ⟨name, text, hdoc⟩
  · intro other password
    change Function.update roll.passwords name (some text) other = some password ↔ _
    rw [hdocs, hiff, Function.update_apply]
    split
    · next hother =>
      subst hother
      rw [hnew, Option.some.injEq, or_iff_right nofun]
      exact ⟨fun hsame => hsame ▸ hdoc, fun haccount => (hdoc.unique hderive haccount).2⟩
    · next hother =>
      rw [or_iff_left fun haccount => hother (hdoc.unique hderive haccount).1.symm]
  · rw [hdocs, List.map_append, List.map_singleton, hdoc.username]
    refine List.nodup_append.mpr ⟨h.nodup, by simp, fun v hv v' hv' hsame => ?_⟩
    obtain ⟨entry, he, rfl⟩ := List.mem_map.mp hv
    obtain rfl := List.mem_singleton.mp hv'
    obtain ⟨other, password, haccount⟩ := h.isAccount entry he
    obtain rfl := Value.str.inj (Option.some.inj (haccount.username.symm.trans hsame))
    exact nomatch hnew.symm.trans ((h.passwords_iff _ password).mpr ⟨entry, he, haccount⟩)

/-- No key is derived from what has no bytes. -/
theorem keyOf_of_error {password : Value} {fault : Fault} (h : encodable password = .error fault)
    (salt : Value) : keyOf derive password salt = .error fault := by
  rw [keyOf, h]
  rfl

/-- Then nobody is stored. -/
theorem run_enroll_of_error {name : String} {password : Value} {fault : Fault}
    (h : encodable password = .error fault) :
    (enroll derive name password).run accounts = (.error fault, accounts) := by
  have hkey : (Effect.ofExcept (keyOf derive password accounts.nextSalt) :
      Effect Accounts Value).run accounts = (.error fault, accounts) :=
    congrArg (·, accounts) (keyOf_of_error h _)
  rw [enroll, run_bind_ok (run_get accounts)]
  exact run_bind_error hkey

/-- A new user is stored with a key that is derived from the password. -/
theorem Represents.exists_run_enroll (h : Represents derive roll accounts)
    (hderive : ∀ salt, Function.Injective fun password => derive password salt)
    {name text : String} {password : Value} (htext : encodable password = .ok text)
    (hnew : roll.passwords name = none) : ∃ accounts',
      (enroll derive name password).run accounts
        = (.ok (.fields [("user", .str name)]), accounts') ∧
      Represents derive { roll with passwords := Function.update roll.passwords name (some text) }
        accounts' ∧ accounts'.tokens = accounts.tokens := by
  obtain ⟨salt, hsalt⟩ := exists_encodable_nextSalt accounts
  have hkey : keyOf derive password accounts.nextSalt = .ok (.str (derive text salt)) :=
    keyOf_eq_ok_iff.mpr ⟨text, salt, htext, hsalt, rfl⟩
  obtain ⟨doc, hdoc⟩ : ∃ doc : Fields, doc = [("username", .str name),
    ("salt", accounts.nextSalt), ("hash", .str (derive text salt))] := ⟨_, rfl⟩
  have hinsert : (onUsers (Store.insert doc)).run accounts
      = (.ok (Store.docId (accounts.users.issued + 1)),
        { accounts with users := accounts.users.grown doc }) := by
    refine run_onUsers ?_
    rw [Store.insert_eq, run_bind_ok (Store.run_enter_of_quiet h.quiet _),
      Store.run_inserted h.numbered, hdoc]
    rfl
  refine ⟨_, ?_, h.grown hderive doc hnew ⟨?_, accounts.nextSalt, salt, ?_, hsalt, ?_⟩,
    rfl⟩
  · have hderived : (Effect.ofExcept (keyOf derive password accounts.nextSalt) :
        Effect Accounts Value).run accounts = (.ok (.str (derive text salt)), accounts) :=
      congrArg (·, accounts) hkey
    rw [enroll, run_bind_ok (run_get accounts)]
    dsimp only
    rw [run_bind_ok hderived, ← hdoc, run_bind_ok hinsert]
    rfl
  all_goals rw [Table.get?_set, hdoc]; rfl

/-- Nobody registers with a name that is blank, or that is no text. -/
theorem follows_register_of_blank {username : Value} (hname : username.isBlankName ≠ .ok false)
    (password : Value) : Follows derive roll accounts (.register username password) := by
  have hgrants : ∀ answer roll',
      ¬roll.Grants derive accounts.nextToken (.register username password) answer roll' := by
    rintro _ _ ⟨hink⟩
    exact hname (Value.isBlankName_eq_ok_false_iff.mpr ⟨_, rfl, hink⟩)
  have hblank : (Effect.ofExcept username.isBlankName : Effect Accounts Bool).run accounts
      = (username.isBlankName, accounts) := rfl
  cases hb : username.isBlankName with
  | error fault =>
    exact follows_of_nothing (.error fault) hgrants
      (run_bind_error (hblank.trans (congrArg (·, accounts) hb))) nofun
  | ok blank =>
    obtain rfl : blank = true := by
      cases blank with
      | true => rfl
      | false => exact absurd hb hname
    exact follows_of_nothing (.ok (.refusal "Username cannot be empty.")) hgrants
      (run_bind_ok (hblank.trans (congrArg (·, accounts) hb))) fun _ ha => Except.ok.inj ha ▸ rfl

/-- Registering follows the roll. -/
theorem Represents.follows_register (h : Represents derive roll accounts)
    (hderive : ∀ salt, Function.Injective fun password => derive password salt)
    (username password : Value) : Follows derive roll accounts (.register username password) := by
  by_cases hname : username.isBlankName = .ok false
  swap
  · exact follows_register_of_blank hname password
  obtain ⟨name, rfl, hink⟩ := Value.isBlankName_eq_ok_false_iff.mp hname
  have hrun : (register derive (.str name) password).run accounts
      = (if !password.truthy then pure (.refusal "Password cannot be empty.")
        else enrollOnce derive name password : Effect Accounts Answer).run accounts :=
    run_bind_ok (congrArg (·, accounts) hname)
  cases hpassword : password.truthy with
  | false =>
    rw [hpassword] at hrun
    refine follows_of_nothing _ ?_ hrun fun _ ha => Except.ok.inj ha ▸ rfl
    rintro _ _ ⟨-, htruthy⟩
    exact absurd htruthy (hpassword ▸ Bool.false_ne_true)
  | true =>
  obtain ⟨found, hfound, hknown⟩ := h.exists_found (.str name)
  rw [hpassword, Bool.not_true, if_neg Bool.false_ne_true, enrollOnce, run_bind_ok hfound] at hrun
  cases found with
  | some doc =>
    obtain ⟨other, text, hother, htaken, -⟩ := hknown
    obtain rfl := Value.str.inj hother
    refine follows_of_nothing _ ?_ hrun fun _ ha => Except.ok.inj ha ▸ rfl
    rintro _ _ ⟨-, -, -, hnew⟩
    exact nomatch htaken.symm.trans hnew
  | none =>
    have hnew := hknown name rfl
    cases htext : encodable password with
    | error fault =>
      refine follows_of_nothing (.error fault) ?_ (hrun.trans ?_) nofun
      · rintro _ _ ⟨-, -, hok⟩
        exact nomatch htext.symm.trans hok
      · exact run_enroll_of_error htext
    | ok text =>
      obtain ⟨accounts', henroll, hrepresents, htokens⟩ :=
        h.exists_run_enroll hderive htext hnew
      exact .inl ⟨_, _, accounts', .register hink hpassword htext hnew, hrun.trans henroll,
        hrepresents, Nat.le_of_eq htokens.symm⟩

/-- The last part of logging in, where the user is found. -/
def openSession (derive : String → String → String) (name : String) (password : Value)
    (doc : Fields) : Effect Accounts Answer := do
  let key ← Effect.ofExcept (keyOf derive password ((Table.get? "salt" doc).getD .null))
  if !key.same ((Table.get? "hash" doc).getD .null) then
    return .refusal "Invalid username or password."
  let token := tokenText ((← get).tokens + 1)
  modify fun accounts =>
    { accounts with
      tokens := accounts.tokens + 1
      sessions := Table.set token (.str name) accounts.sessions }
  return .fields [("token", .str token)]

/-- A session is opened for the password that the user has registered with, and for no other. -/
theorem run_openSession (hderive : ∀ salt, Function.Injective fun password => derive password salt)
    {name registered text : String} {password : Value} {doc : Fields}
    (hdoc : IsAccount derive name registered doc) (htext : encodable password = .ok text) :
    (openSession derive name password doc).run accounts
      = if text = registered then (.ok (.fields [("token", .str accounts.nextToken)]),
          { accounts with
            tokens := accounts.tokens + 1
            sessions := Table.set accounts.nextToken (.str name) accounts.sessions })
        else (.ok (.refusal "Invalid username or password."), accounts) := by
  obtain ⟨salt, plain, hsalt, hplain, hhash⟩ := hdoc.hash
  have hkey : (Effect.ofExcept (keyOf derive password ((Table.get? "salt" doc).getD .null)) :
      Effect Accounts Value).run accounts = (.ok (.str (derive text plain)), accounts) :=
    congrArg (·, accounts) (keyOf_eq_ok_iff.mpr ⟨text, plain, htext, by rwa [hsalt], rfl⟩)
  rw [openSession, run_bind_ok hkey, hhash, Option.getD_some]
  by_cases hsame : text = registered
  · subst hsame
    rw [if_neg (by simp [Value.same]), if_pos rfl]
    rfl
  · have hdiffers : derive text plain ≠ derive registered plain := fun heq =>
      hsame (hderive plain heq)
    rw [if_pos (by simpa [Value.same] using hdiffers), if_neg hsame]
    rfl

/-- With an open session more, the accounts are about one session more. -/
theorem Represents.opened (h : Represents derive roll accounts) (name : String) :
    Represents derive
      { roll with sessions := Function.update roll.sessions accounts.nextToken (some name) }
      { accounts with
        tokens := accounts.tokens + 1
        sessions := Table.set accounts.nextToken (.str name) accounts.sessions } := by
  refine { h with
    get?_sessions := fun token => ?_, once := Table.nodup_keys_set _ _ h.once, handed := ?_ }
  · change Table.get? token (Table.set _ _ accounts.sessions)
      = (Function.update roll.sessions accounts.nextToken (some name) token).map Value.str
    rw [Table.get?_set, Function.update_apply]
    simp only [eq_comm (a := token)]
    split
    · rfl
    · exact h.get?_sessions token
  · intro token user huser
    change Function.update roll.sessions accounts.nextToken (some name) token = some user at huser
    rw [Function.update_apply] at huser
    split at huser
    · next htoken => exact ⟨accounts.tokens + 1, Nat.le_refl _, htoken⟩
    · obtain ⟨n, hn, htoken⟩ := h.handed token user huser
      exact ⟨n, Nat.le_succ_of_le hn, htoken⟩

/-- With a session closed, they are about one less. -/
theorem Represents.closed (h : Represents derive roll accounts) (token : String) :
    Represents derive { roll with sessions := Function.update roll.sessions token none }
      { accounts with sessions := Table.erase token accounts.sessions } := by
  refine { h with get?_sessions := fun other => ?_, once := ?_, handed := ?_ }
  · change Table.get? other (Table.erase token accounts.sessions)
      = (Function.update roll.sessions token none other).map Value.str
    rw [Table.get?_erase token other h.once, Function.update_apply]
    simp only [eq_comm (a := other)]
    split
    · rfl
    · exact h.get?_sessions other
  · change (Table.keys (Table.erase token accounts.sessions)).Nodup
    rw [Table.keys_erase]
    exact h.once.erase token
  · intro other user huser
    change Function.update roll.sessions token none other = some user at huser
    rw [Function.update_apply] at huser
    split at huser
    · cases huser
    · exact h.handed other user huser

/-- Logging in follows the roll. -/
theorem Represents.follows_login (h : Represents derive roll accounts)
    (hderive : ∀ salt, Function.Injective fun password => derive password salt)
    (username password : Value) : Follows derive roll accounts (.login username password) := by
  obtain ⟨found, hfound, hknown⟩ := h.exists_found username
  cases found with
  | none =>
    refine follows_of_nothing (.ok (.refusal "Invalid username or password.")) ?_
      (run_bind_ok hfound) fun _ ha => Except.ok.inj ha ▸ rfl
    intro _ _ hgrants
    cases hgrants with
    | login _ hregistered => exact nomatch (hknown _ rfl).symm.trans hregistered
  | some doc =>
  obtain ⟨name, registered, rfl, hregistered, hdoc⟩ := hknown
  have hrun : (login derive (.str name) password).run accounts
      = (openSession derive name password doc).run accounts := run_bind_ok hfound
  cases htext : encodable password with
  | error fault =>
    refine follows_of_nothing (.error fault) ?_ (hrun.trans ?_) nofun
    · intro _ _ hgrants
      cases hgrants with
      | login hok => exact nomatch htext.symm.trans hok
    · exact run_bind_error (congrArg (·, accounts) (keyOf_of_error htext _))
  | ok text =>
  rw [run_openSession hderive hdoc htext] at hrun
  by_cases hsame : text = registered
  · subst hsame
    rw [if_pos rfl] at hrun
    exact .inl ⟨_, _, _, .login htext hregistered, hrun, h.opened name, Nat.le_succ _⟩
  · rw [if_neg hsame] at hrun
    refine follows_of_nothing _ ?_ hrun fun _ ha => Except.ok.inj ha ▸ rfl
    intro _ _ hgrants
    cases hgrants with
    | login htext' hregistered' =>
      obtain rfl := Except.ok.inj (htext.symm.trans htext')
      exact hsame (Option.some.inj (hregistered'.symm.trans hregistered))

/-- Who is found by a token is whom the roll says it belongs to. -/
theorem Represents.userOf_eq (h : Represents derive roll accounts) (token : Value) :
    userOf token accounts = if token.hashable then .ok ((roll.holder? token).map Value.str)
      else .error (.misuse .type) := by
  cases token with
  | str token =>
    rw [userOf, h.get?_sessions]
    cases hholder : roll.sessions token <;> simp [Roll.holder?, hholder, Value.isNull,
      Value.hashable]
  | _ => rfl

/-- A token that belongs to somebody is a text that counts as true. -/
theorem Represents.exists_str_of_holder? (h : Represents derive roll accounts) {token : Value}
    {user : String} (huser : roll.holder? token = some user) :
    ∃ known, token = .str known ∧ token.truthy = true ∧ roll.sessions known = some user := by
  cases token with
  | str known =>
    refine ⟨known, rfl, ?_, huser⟩
    obtain ⟨n, -, rfl⟩ := h.handed known user huser
    have hne : tokenText n ≠ "" := fun heq => by simpa [tokenText] using congrArg String.length heq
    simpa [Value.truthy] using hne
  | _ => cases huser

/-- Where no session is open, no token belongs to anybody. -/
theorem Represents.holder?_eq_none_of_isEmpty (h : Represents derive roll accounts)
    (hempty : accounts.sessions.isEmpty = true) (token : Value) : roll.holder? token = none := by
  cases token with
  | str token =>
    have hget := h.get?_sessions token
    rw [List.isEmpty_iff.mp hempty] at hget
    exact Option.map_eq_none_iff.mp hget.symm
  | _ => rfl

/-- The look-up of a token as a step. -/
theorem Represents.run_userOf (h : Represents derive roll accounts) (token : Value) :
    (Effect.ofExcept (userOf token accounts) : Effect Accounts (Option Value)).run accounts
      = (if token.hashable then .ok ((roll.holder? token).map Value.str)
        else .error (.misuse .type), accounts) :=
  congrArg (·, accounts) (h.userOf_eq token)

/-- What is answered when a token is verified. -/
theorem Represents.run_verify (h : Represents derive roll accounts) (token : Value) :
    (verify token).run accounts = (match roll.holder? token with
      | some user => .ok (.fields [("user", .str user)])
      | none => if token.truthy && !token.hashable then .error (.misuse .type)
        else .ok (.refusal "invalid token"), accounts) := by
  have hrun := h.run_userOf token
  cases hholder : roll.holder? token with
  | some user =>
    obtain ⟨known, rfl, htruthy, -⟩ := h.exists_str_of_holder? hholder
    rw [hholder] at hrun
    rw [verify, htruthy, Bool.not_true, if_neg Bool.false_ne_true, run_bind_ok (run_get accounts),
      run_bind_ok hrun]
    rfl
  | none =>
    rw [hholder] at hrun
    cases htruthy : token.truthy with
    | false =>
      rw [verify, htruthy]
      rfl
    | true =>
      rw [verify, htruthy, Bool.not_true, if_neg Bool.false_ne_true,
        run_bind_ok (run_get accounts)]
      cases hhashable : token.hashable with
      | false =>
        rw [hhashable, if_neg Bool.false_ne_true] at hrun
        rw [run_bind_error hrun]
        rfl
      | true =>
        rw [hhashable, if_pos rfl] at hrun
        rw [run_bind_ok hrun]
        rfl

/-- Verifying follows the roll. -/
theorem Represents.follows_verify (h : Represents derive roll accounts) (token : Value) :
    Follows derive roll accounts (.verify token) := by
  have hrun : ((AccountAction.verify token).run derive).run accounts = _ := h.run_verify token
  cases hholder : roll.holder? token with
  | some user =>
    rw [hholder] at hrun
    obtain ⟨known, rfl, -, hopen⟩ := h.exists_str_of_holder? hholder
    exact .inl ⟨_, _, _, .verify hopen, hrun, h, Nat.le_refl _⟩
  | none =>
    rw [hholder] at hrun
    refine follows_of_nothing _ ?_ hrun fun answer ha => ?_
    · intro _ _ hgrants
      cases hgrants with
      | verify hopen => exact nomatch hholder.symm.trans hopen
    · dsimp only at ha
      split at ha
      · exact nomatch ha
      · exact Except.ok.inj ha ▸ rfl

/-- Logging out follows the roll. -/
theorem Represents.follows_logout (h : Represents derive roll accounts) (token : Value) :
    Follows derive roll accounts (.logout token) := by
  have hnot : roll.holder? token = none → ∀ answer roll',
      ¬roll.Grants derive accounts.nextToken (.logout token) answer roll' := by
    intro hholder _ _ hgrants
    cases hgrants with
    | logout hopen => exact nomatch hholder.symm.trans hopen
  have hrun : ((AccountAction.logout token).run derive).run accounts
      = (logout token).run accounts := rfl
  rw [logout, run_bind_ok (run_get accounts)] at hrun
  split at hrun
  · next hempty =>
    have hnone := h.holder?_eq_none_of_isEmpty hempty token
    exact follows_of_nothing _ (hnot hnone) hrun fun _ ha => Except.ok.inj ha ▸ rfl
  rw [run_bind_ok (run_get accounts)] at hrun
  have hlook := h.run_userOf token
  cases hhashable : token.hashable with
  | false =>
    have hnone := Roll.holder?_eq_none_of_not_hashable roll hhashable
    rw [hhashable, if_neg Bool.false_ne_true] at hlook
    exact follows_of_nothing _ (hnot hnone) (hrun.trans (run_bind_error hlook)) nofun
  | true =>
  rw [hhashable, if_pos rfl] at hlook
  rw [run_bind_ok hlook] at hrun
  cases hholder : roll.holder? token with
  | some user =>
    obtain ⟨known, rfl, -, hopen⟩ := h.exists_str_of_holder? hholder
    rw [hholder] at hrun
    exact .inl ⟨_, _, _, .logout hopen, hrun, h.closed known, Nat.le_refl _⟩
  | none =>
    rw [hholder] at hrun
    cases token with
    | str known =>
      -- The session is closed all the same, but there is none to close.
      have hget := h.get?_sessions known
      rw [show roll.sessions known = none from hholder] at hget
      refine follows_of_nothing (.ok (.refusal "invalid token")) (hnot hholder) (hrun.trans ?_)
        fun _ ha => Except.ok.inj ha ▸ rfl
      exact congrArg (fun sessions => (_, { accounts with sessions := sessions }))
        (Table.erase_of_get?_eq_none hget)
    | _ => exact follows_of_nothing _ (hnot hholder) hrun fun _ ha => Except.ok.inj ha ▸ rfl

/-- Asking for a name follows the roll. -/
theorem Represents.follows_username (h : Represents derive roll accounts) (user : Value) :
    Follows derive roll accounts (.username user) := by
  obtain ⟨found, hfound, hknown⟩ := h.exists_found user
  have hrun : ((AccountAction.username user).run derive).run accounts = _ := run_bind_ok hfound
  cases found with
  | some doc =>
    obtain ⟨name, text, rfl, hregistered, hdoc⟩ := hknown
    dsimp only at hrun
    rw [hdoc.username] at hrun
    exact .inl ⟨_, _, _, .username hregistered, hrun, h, Nat.le_refl _⟩
  | none =>
    have hnot : ∀ answer roll',
        ¬roll.Grants derive accounts.nextToken (.username user) answer roll' := by
      intro _ _ hgrants
      cases hgrants with
      | username hregistered => exact nomatch (hknown _ rfl).symm.trans hregistered
    have htext : (textOf user : Effect Accounts String).run accounts
        = (user.text.mapError .misuse, accounts) := rfl
    cases ht : user.text.mapError Fault.misuse with
    | error fault =>
      rw [ht] at htext
      exact follows_of_nothing _ hnot (hrun.trans (run_bind_error htext)) nofun
    | ok text =>
      rw [ht] at htext
      exact follows_of_nothing _ hnot (hrun.trans (run_bind_ok htext))
        fun _ ha => Except.ok.inj ha ▸ rfl

/-- So does deriving a key. -/
theorem Represents.follows_deriveKey (h : Represents derive roll accounts)
    (password salt : Value) : Follows derive roll accounts (.deriveKey password salt) := by
  cases hkey : keyOf derive password salt with
  | error fault =>
    refine follows_of_nothing (.error fault) ?_
      (run_bind_error (congrArg (·, accounts) hkey)) nofun
    intro _ _ hgrants
    cases hgrants with
    | deriveKey hok => exact nomatch hkey.symm.trans hok
  | ok key =>
    exact .inl ⟨_, _, _, .deriveKey hkey, run_bind_ok (congrArg (·, accounts) hkey), h,
      Nat.le_refl _⟩

/-- Whatever is asked of the accounts does what it does on the roll, or comes to nothing. -/
theorem Represents.follows (h : Represents derive roll accounts)
    (hderive : ∀ salt, Function.Injective fun password => derive password salt)
    (action : AccountAction) : Follows derive roll accounts action := by
  cases action with
  | register username password => exact h.follows_register hderive username password
  | login username password => exact h.follows_login hderive username password
  | verify token => exact h.follows_verify token
  | logout token => exact h.follows_logout token
  | username user => exact h.follows_username user
  | deriveKey password salt => exact h.follows_deriveKey password salt

/-- So the answers of the accounts that are no refusals are those of the roll. -/
theorem Represents.answers_iff (h : Represents derive roll accounts)
    (hderive : ∀ salt, Function.Injective fun password => derive password salt)
    {action : AccountAction} {answer : Answer} (hnot : ¬answer.Refuses) :
    Answers derive accounts action answer ↔
      ∃ roll', roll.Grants derive accounts.nextToken action answer roll' := by
  rcases h.follows hderive action with
    ⟨answer', roll', accounts', hgrants, hrun, -⟩ | ⟨hnone, hfails, -⟩
  · have hanswers : Answers derive accounts action answer' := congrArg Prod.fst hrun
    constructor
    · intro ha
      obtain rfl := Except.ok.inj (Eq.trans (Eq.symm ha) hanswers)
      exact ⟨roll', hgrants⟩
    · rintro ⟨roll'', hgrants'⟩
      exact hgrants'.answer_unique hgrants ▸ hanswers
  · exact ⟨fun ha => absurd ⟨answer, ha, hnot⟩ hfails, fun ⟨roll', hgrants⟩ =>
      absurd hgrants (hnone answer roll')⟩

/-- And what succeeds on the accounts is what succeeds on the roll. -/
theorem Represents.succeeds_iff (h : Represents derive roll accounts)
    (hderive : ∀ salt, Function.Injective fun password => derive password salt)
    {action : AccountAction} : Succeeds derive accounts action ↔
      ∃ answer roll', roll.Grants derive accounts.nextToken action answer roll' := by
  constructor
  · rintro ⟨answer, ha, hnot⟩
    exact ⟨answer, (h.answers_iff hderive hnot).mp ha⟩
  · rintro ⟨answer, hgrants⟩
    have hnot : ¬answer.Refuses := hgrants.elim fun _ hg => hg.not_refuses
    exact ⟨answer, (h.answers_iff hderive hnot).mpr hgrants, hnot⟩

end Accounts

end HerdBook
