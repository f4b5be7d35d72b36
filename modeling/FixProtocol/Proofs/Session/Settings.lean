import FixProtocol.Proofs.Session.Writing
import Mathlib.Data.List.Induction

/-!
# What is given survives

Settings are given one by one, in any order, and built at the end. Building takes over what was
given last for each setting. What was not given has its default, which for three waiting times is
the heartbeat interval, and a waiting time that was given is never taken for a default.

- `Given.Last`, `Given.Never`: what was said last about a setting, or that nothing was.
- `Given.Settles`: the value that a setting has by what was said about it and its default.
- `SessionConfig.Honours`, `SessionConfig.Usable`: settings that are as given, and settings that a
  session can run with.
- `SessionSettings.buildIn_honours`: building gives exactly the settings that are as given and
  usable, and else a reason.
-/

namespace FixProtocol

namespace Given

variable {α : Type} {all : List Given} {say : α → Given} {a b otherwise : α}

/-- The last that was said about the setting that `say` speaks of is the value `a`. -/
def Last (all : List Given) (say : α → Given) (a : α) : Prop :=
  ∃ before after, all = before ++ say a :: after ∧ ∀ b, say b ∉ after

/-- Nothing was said about the setting that `say` speaks of. -/
def Never (all : List Given) (say : α → Given) : Prop :=
  ∀ b, say b ∉ all

/-- A setting has the value that it was given last, or its default if it was given none. -/
def Settles (all : List Given) (say : α → Given) (otherwise a : α) : Prop :=
  Last all say a ∨ (Never all say ∧ a = otherwise)

theorem last_concat (all : List Given) (say : α → Given) (a : α) : Last (all ++ [say a]) say a :=
  ⟨all, [], rfl, nofun⟩

theorem not_mem_concat {g : Given} {gs : List Given} (h : ∀ b, say b ∉ gs) (hg : ∀ b, g ≠ say b)
    (b : α) : say b ∉ gs ++ [g] := by
  intro hmem
  rcases List.mem_append.mp hmem with hmem | hmem
  · exact h b hmem
  · exact hg b (List.mem_singleton.mp hmem).symm

/-- What is said about something else changes nothing. -/
theorem Last.concat {g : Given} (h : Last all say a) (hg : ∀ b, g ≠ say b) :
    Last (all ++ [g]) say a := by
  obtain ⟨before, after, rfl, hafter⟩ := h
  exact ⟨before, after ++ [g], List.append_assoc .., not_mem_concat hafter hg⟩

theorem Last.mem (h : Last all say a) : say a ∈ all := by
  obtain ⟨before, after, rfl, _⟩ := h
  exact List.mem_append_right _ List.mem_cons_self

/-- Only one value was given last. -/
theorem Last.unique (hsay : say.Injective) (ha : Last all say a) (hb : Last all say b) : a = b := by
  obtain ⟨before, after, rfl, hafter⟩ := ha
  obtain ⟨before', after', heq, hafter'⟩ := hb
  rcases List.append_eq_append_iff.mp heq with ⟨between, -, hrest⟩ | ⟨between, -, hrest⟩
  · cases between with
    | nil => exact hsay (List.cons.inj hrest).1
    | cons g between =>
      refine absurd ?_ (hafter b)
      rw [(List.cons.inj hrest).2]
      exact List.mem_append_right _ List.mem_cons_self
  · cases between with
    | nil => exact hsay (List.cons.inj hrest).1.symm
    | cons g between =>
      refine absurd ?_ (hafter' a)
      rw [(List.cons.inj hrest).2]
      exact List.mem_append_right _ List.mem_cons_self

/-- Settings are told apart by their values. -/
theorem setting_injective {f : α → Setting} (hf : f.Injective) :
    (Given.setting ∘ f).Injective :=
  Function.Injective.comp (fun _ _ => Given.setting.inj) hf

end Given

namespace SessionSettings

open Given

variable {α β : Type} {all : List Given} {say : α → Given} {value : α → β} {absent : β}
  {get : SessionSettings → β}

/-! ## What is noted -/

/-- What `get` finds in the notes is what was said last, as `value` notes it, or `absent`. -/
def Noted (all : List Given) (say : α → Given) (value : α → β) (absent : β)
    (get : SessionSettings → β) : Prop :=
  (∃ a, Last all say a ∧ get (ofGiven all) = value a) ∨ (Never all say ∧ get (ofGiven all) = absent)

/-- A place of the notes where only what `say` says is written. -/
structure Slot (say : α → Given) (value : α → β) (absent : β) (get : SessionSettings → β) :
    Prop where
  written : ∀ (s : SessionSettings) a, get (s.note (say a)) = value a
  kept : ∀ (s : SessionSettings) g, (∀ a, g ≠ say a) → get (s.note g) = get s
  empty : get .empty = absent

theorem ofGiven_concat (all : List Given) (g : Given) :
    ofGiven (all ++ [g]) = (ofGiven all).note g :=
  List.foldl_append

/-- A place of its own holds what was said last. -/
theorem Slot.noted (h : Slot say value absent get) (all : List Given) :
    Noted all say value absent get := by
  induction all using List.reverseRecOn with
  | nil => exact .inr ⟨nofun, h.empty⟩
  | append_singleton all g ih =>
    unfold Noted
    rw [ofGiven_concat]
    by_cases hg : ∃ a, g = say a
    · obtain ⟨a, rfl⟩ := hg
      exact .inl ⟨a, last_concat all say a, h.written _ a⟩
    · have hother : ∀ a, g ≠ say a := not_exists.mp hg
      rw [h.kept _ g hother]
      rcases ih with ⟨a, hlast, hget⟩ | ⟨hnever, hget⟩
      · exact .inl ⟨a, hlast.concat hother, hget⟩
      · exact .inr ⟨not_mem_concat hnever hother, hget⟩

/-- All that is noted. -/
structure Notes (all : List Given) : Prop where
  sender : Noted all .sender some none sender
  target : Noted all .target some none target
  beginString : Noted all .beginString some none beginString
  role : Noted all (.setting ∘ .role) id .initiator role
  heartbeatInterval : Noted all (.setting ∘ .heartbeatInterval) some none heartbeatInterval
  logonTimeout : Noted all (.setting ∘ .logonTimeout) some none logonTimeout
  logoutTimeout : Noted all (.setting ∘ .logoutTimeout) some none logoutTimeout
  testRequestGrace : Noted all (.setting ∘ .testRequestGrace) some none testRequestGrace
  resendTimeout : Noted all (.setting ∘ .resendTimeout) some none resendTimeout
  resendRetryLimit : Noted all (.setting ∘ .resendRetryLimit) some none resendRetryLimit
  maxMessageSize : Noted all (.setting ∘ .maxMessageSize) some none maxMessageSize
  maxBufferedMessages : Noted all (.setting ∘ .maxBufferedMessages) some none maxBufferedMessages

/-- Each thing that can be given has a place of its own. -/
theorem notes_ofGiven (all : List Given) : Notes all := by
  constructor
  all_goals
    refine Slot.noted ⟨fun _ _ => rfl, ?_, rfl⟩ all
    rintro s (_ | _ | _ | (_ | _ | _ | _ | _ | _ | _ | _ | _)) hother
  all_goals first | rfl | exact absurd rfl (hother _)

/-- What was given last is found, and only that. -/
theorem Noted.eq_some_iff {get : SessionSettings → Option α} (hsay : say.Injective)
    (h : Noted all say some none get) {a : α} : get (ofGiven all) = some a ↔ Last all say a := by
  rcases h with ⟨b, hlast, hget⟩ | ⟨hnever, hget⟩
  · rw [hget, Option.some.injEq]
    constructor
    · rintro rfl
      exact hlast
    · exact hlast.unique hsay
  · rw [hget]
    exact iff_of_false nofun fun hlast => hnever a hlast.mem

/-- The value that is read out of a note is the value of the setting. -/
theorem Noted.eq_iff_settles (hsay : say.Injective) (h : Noted all say value absent get)
    (out : β → α) (hout : ∀ a, out (value a) = a) {a : α} :
    out (get (ofGiven all)) = a ↔ Settles all say (out absent) a := by
  rcases h with ⟨b, hlast, hget⟩ | ⟨hnever, hget⟩
  · rw [hget, hout]
    constructor
    · rintro rfl
      exact .inl hlast
    · rintro (ha | ⟨hnever, -⟩)
      · exact hlast.unique hsay ha
      · exact absurd hlast.mem (hnever b)
  · rw [hget]
    constructor
    · rintro rfl
      exact .inr ⟨hnever, rfl⟩
    · rintro (ha | ⟨-, rfl⟩)
      · exact absurd ha.mem (hnever a)
      · rfl

/-- A setting that is noted only when it is given has its default otherwise. -/
theorem Noted.getD_eq_iff {f : α → Setting} {get : SessionSettings → Option α}
    (h : Noted all (.setting ∘ f) some none get) (hf : f.Injective) (otherwise a : α) :
    (get (ofGiven all)).getD otherwise = a ↔ Settles all (.setting ∘ f) otherwise a :=
  h.eq_iff_settles (setting_injective hf) (·.getD otherwise) fun _ => rfl

end SessionSettings

/-! ## What is built -/

namespace SessionConfig

open Given

/-- The settings are as given: both names and the version are what was given last, and so is every
other setting that was given. If it was not, it is the default, and the three waiting times are the
heartbeat interval. A second has `second` units of time. -/
structure Honours (second : Nat) (all : List Given) (c : SessionConfig) : Prop where
  sender : ∃ text, Last all .sender text ∧ CompId.ofText? text = some c.sender
  target : ∃ text, Last all .target text ∧ CompId.ofText? text = some c.target
  beginString : Last all .beginString c.beginString
  role : Settles all (.setting ∘ .role) .initiator c.role
  heartbeatInterval : Settles all (.setting ∘ .heartbeatInterval) (30 * second) c.heartbeatInterval
  logonTimeout : Settles all (.setting ∘ .logonTimeout) c.heartbeatInterval c.logonTimeout
  logoutTimeout : Settles all (.setting ∘ .logoutTimeout) (10 * second) c.logoutTimeout
  testRequestGrace :
    Settles all (.setting ∘ .testRequestGrace) c.heartbeatInterval c.testRequestGrace
  resendTimeout : Settles all (.setting ∘ .resendTimeout) c.heartbeatInterval c.resendTimeout
  resendRetryLimit : Settles all (.setting ∘ .resendRetryLimit) 3 c.resendRetryLimit
  maxMessageSize : Settles all (.setting ∘ .maxMessageSize) 1048576 c.maxMessageSize
  maxBufferedMessages : Settles all (.setting ∘ .maxBufferedMessages) 10000 c.maxBufferedMessages

/-- A session can run with the settings: the version can be written, the heartbeat interval is 1 to
3600 whole seconds, nothing waits for no time, and no limit is zero. -/
structure Usable (second : Nat) (c : SessionConfig) : Prop where
  beginString_ne : c.beginString ≠ ""
  soh_not_mem : Bytes.soh ∉ Utf8.bytes c.beginString
  seconds : 1 ≤ c.heartbeatInterval / second ∧ c.heartbeatInterval / second ≤ 3600
  logonTimeout_ne : c.logonTimeout ≠ 0
  logoutTimeout_ne : c.logoutTimeout ≠ 0
  testRequestGrace_ne : c.testRequestGrace ≠ 0
  resendTimeout_ne : c.resendTimeout ≠ 0
  one_le_resendRetryLimit : 1 ≤ c.resendRetryLimit
  one_le_maxMessageSize : 1 ≤ c.maxMessageSize
  one_le_maxBufferedMessages : 1 ≤ c.maxBufferedMessages

variable {second : Nat} {c : SessionConfig}

theorem validateIn_eq_ok_iff_usable : c.validateIn second = .ok () ↔ Usable second c := by
  rw [validateIn_eq_ok_iff]
  constructor
  · rintro ⟨hne, hsoh, hseconds, hlogon, hlogout, hgrace, hresend, hretries, hsize, hbuffered⟩
    exact ⟨hne, hsoh, hseconds, hlogon, hlogout, hgrace, hresend, Nat.pos_of_ne_zero hretries,
      Nat.pos_of_ne_zero hsize, Nat.pos_of_ne_zero hbuffered⟩
  · intro h
    exact ⟨h.beginString_ne, h.soh_not_mem, h.seconds, h.logonTimeout_ne, h.logoutTimeout_ne,
      h.testRequestGrace_ne, h.resendTimeout_ne, Nat.ne_of_gt h.one_le_resendRetryLimit,
      Nat.ne_of_gt h.one_le_maxMessageSize, Nat.ne_of_gt h.one_le_maxBufferedMessages⟩

/-- If it fails, it is the settings that are wrong, and it says how. -/
def Explained {α : Type} (x : Except SessionError α) : Prop :=
  ∀ e, x = .error e → ∃ reason, e = .configuration reason

theorem Explained.bind {α β : Type} {x : Except SessionError α} {f : α → Except SessionError β}
    (hx : Explained x) (hf : ∀ a, Explained (f a)) : Explained (x >>= f) := by
  cases x with
  | error e =>
    intro e' he'
    exact hx e' (congrArg Except.error (Except.error.inj he'))
  | ok a => exact hf a

theorem explained_demand (holds : Bool) (reason : String) : Explained (demand holds reason) := by
  cases holds with
  | false =>
    rintro _ ⟨⟩
    exact ⟨reason, rfl⟩
  | true => exact nofun

theorem explained_validateIn (second : Nat) (c : SessionConfig) :
    Explained (c.validateIn second) := by
  unfold validateIn
  iterate 9 refine .bind (explained_demand _ _) fun _ => ?_
  exact explained_demand _ _

end SessionConfig

namespace SessionSettings

open Given SessionConfig

variable {second : Nat} {all : List Given}

/-- The defaults with what was given put in their place. -/
theorem applyTo_defaultIn (second : Nat) (sender target : CompId) (version : String)
    (s : SessionSettings) :
    s.applyTo (.defaultIn second sender target version) =
      let interval := s.heartbeatInterval.getD (30 * second)
      { sender, target
        beginString := version
        role := s.role
        heartbeatInterval := interval
        logonTimeout := s.logonTimeout.getD interval
        logoutTimeout := s.logoutTimeout.getD (10 * second)
        testRequestGrace := s.testRequestGrace.getD interval
        resendTimeout := s.resendTimeout.getD interval
        resendRetryLimit := s.resendRetryLimit.getD 3
        maxMessageSize := s.maxMessageSize.getD 1048576
        maxBufferedMessages := s.maxBufferedMessages.getD 10000 } := by
  unfold applyTo
  cases s.heartbeatInterval with
  | none => rfl
  | some interval => simp [withHeartbeatInterval, following, defaultIn]

theorem requireCompId_eq_ok_iff {what : String} {given : Option String} {id : CompId} :
    requireCompId what given = .ok id ↔
      ∃ text, given = some text ∧ CompId.ofText? text = some id := by
  unfold requireCompId
  cases given with
  | none => exact iff_of_false nofun nofun
  | some text =>
    dsimp only
    cases htext : CompId.ofText? text with
    | none =>
      refine iff_of_false nofun ?_
      rintro ⟨_, heq, hid⟩
      rw [← Option.some.inj heq, htext] at hid
      cases hid
    | some found =>
      constructor
      · intro heq
        exact ⟨text, rfl, htext.trans (congrArg some (Except.ok.inj heq))⟩
      · rintro ⟨_, heq, hid⟩
        rw [← Option.some.inj heq, htext] at hid
        exact congrArg Except.ok (Option.some.inj hid)

theorem requireBeginString_eq_ok_iff {given : Option String} {version : String} :
    requireBeginString given = .ok version ↔ given = some version := by
  cases given with
  | none => exact iff_of_false nofun nofun
  | some text =>
    exact ⟨fun h => congrArg some (Except.ok.inj h), fun h => congrArg _ (Option.some.inj h)⟩

theorem explained_requireCompId (what : String) (given : Option String) :
    Explained (requireCompId what given) := by
  unfold requireCompId
  split
  · rintro _ ⟨⟩
    exact ⟨_, rfl⟩
  · split
    · exact nofun
    · rintro _ ⟨⟩
      exact ⟨_, rfl⟩

theorem explained_requireBeginString (given : Option String) :
    Explained (requireBeginString given) := by
  cases given with
  | none =>
    rintro _ ⟨⟩
    exact ⟨_, rfl⟩
  | some text => exact nofun

/-- Building succeeds with the defaults in whose place was put what was given, if both names and the
version are there and the result is usable. -/
theorem buildIn_eq_ok_iff {s : SessionSettings} {c : SessionConfig} :
    s.buildIn second = .ok c ↔
      (∃ text, s.sender = some text ∧ CompId.ofText? text = some c.sender) ∧
        (∃ text, s.target = some text ∧ CompId.ofText? text = some c.target) ∧
        s.beginString = some c.beginString ∧
        s.applyTo (.defaultIn second c.sender c.target c.beginString) = c ∧ Usable second c := by
  unfold buildIn
  constructor
  · intro h
    obtain ⟨sender, hsender, h⟩ := exists_of_bind_eq_ok h
    obtain ⟨target, htarget, h⟩ := exists_of_bind_eq_ok h
    obtain ⟨version, hversion, h⟩ := exists_of_bind_eq_ok h
    obtain ⟨_, hvalid, h⟩ := exists_of_bind_eq_ok h
    obtain rfl := Except.ok.inj h
    have hnames := applyTo_defaultIn second sender target version s
    rw [requireCompId_eq_ok_iff] at hsender htarget
    rw [requireBeginString_eq_ok_iff] at hversion
    rw [validateIn_eq_ok_iff_usable] at hvalid
    rw [hnames] at hvalid ⊢
    exact ⟨hsender, htarget, hversion, hnames, hvalid⟩
  · rintro ⟨hsender, htarget, hversion, hc, hvalid⟩
    rw [requireCompId_eq_ok_iff.mpr hsender, requireCompId_eq_ok_iff.mpr htarget,
      requireBeginString_eq_ok_iff.mpr hversion]
    show (do validateIn second (applyTo _ _); return applyTo _ _) = _
    rw [hc, validateIn_eq_ok_iff_usable.mpr hvalid]
    rfl

/-- Settings that are refused are refused with a reason. -/
theorem explained_buildIn (second : Nat) (s : SessionSettings) : Explained (s.buildIn second) := by
  refine .bind (explained_requireCompId _ _) fun sender => ?_
  refine .bind (explained_requireCompId _ _) fun target => ?_
  refine .bind (explained_requireBeginString _) fun version => ?_
  exact .bind (explained_validateIn _ _) fun _ => nofun

/-- What the defaults become when what was given is put in their place. -/
theorem applyTo_eq_iff {s : SessionSettings} {c : SessionConfig} :
    s.applyTo (.defaultIn second c.sender c.target c.beginString) = c ↔
      s.role = c.role ∧ s.heartbeatInterval.getD (30 * second) = c.heartbeatInterval ∧
        s.logonTimeout.getD c.heartbeatInterval = c.logonTimeout ∧
        s.logoutTimeout.getD (10 * second) = c.logoutTimeout ∧
        s.testRequestGrace.getD c.heartbeatInterval = c.testRequestGrace ∧
        s.resendTimeout.getD c.heartbeatInterval = c.resendTimeout ∧
        s.resendRetryLimit.getD 3 = c.resendRetryLimit ∧
        s.maxMessageSize.getD 1048576 = c.maxMessageSize ∧
        s.maxBufferedMessages.getD 10000 = c.maxBufferedMessages := by
  obtain ⟨sender, target, version, role, interval, logon, logout, grace, resend, retries, size,
    buffered⟩ := c
  simp only [applyTo_defaultIn, SessionConfig.mk.injEq, true_and]
  constructor
  · rintro ⟨hrole, rfl, hrest⟩
    exact ⟨hrole, rfl, hrest⟩
  · rintro ⟨hrole, rfl, hrest⟩
    exact ⟨hrole, rfl, hrest⟩

/-- The settings that the notes make are those that are as given. -/
theorem honours_iff {c : SessionConfig} :
    Honours second all c ↔
      (∃ text, (ofGiven all).sender = some text ∧ CompId.ofText? text = some c.sender) ∧
        (∃ text, (ofGiven all).target = some text ∧ CompId.ofText? text = some c.target) ∧
        (ofGiven all).beginString = some c.beginString ∧
        (ofGiven all).applyTo (.defaultIn second c.sender c.target c.beginString) = c := by
  have n := notes_ofGiven all
  have hsender {text : String} : (ofGiven all).sender = some text ↔ Last all .sender text :=
    n.sender.eq_some_iff fun _ _ => Given.sender.inj
  have htarget {text : String} : (ofGiven all).target = some text ↔ Last all .target text :=
    n.target.eq_some_iff fun _ _ => Given.target.inj
  have hversion : (ofGiven all).beginString = some c.beginString ↔
      Last all .beginString c.beginString :=
    n.beginString.eq_some_iff fun _ _ => Given.beginString.inj
  have hrole : (ofGiven all).role = c.role ↔ Settles all (.setting ∘ .role) .initiator c.role :=
    n.role.eq_iff_settles (setting_injective fun _ _ => Setting.role.inj) id fun _ => rfl
  have hinterval := n.heartbeatInterval.getD_eq_iff (fun _ _ => Setting.heartbeatInterval.inj)
    (30 * second) c.heartbeatInterval
  have hlogon := n.logonTimeout.getD_eq_iff (fun _ _ => Setting.logonTimeout.inj)
    c.heartbeatInterval c.logonTimeout
  have hlogout := n.logoutTimeout.getD_eq_iff (fun _ _ => Setting.logoutTimeout.inj)
    (10 * second) c.logoutTimeout
  have hgrace := n.testRequestGrace.getD_eq_iff (fun _ _ => Setting.testRequestGrace.inj)
    c.heartbeatInterval c.testRequestGrace
  have hresend := n.resendTimeout.getD_eq_iff (fun _ _ => Setting.resendTimeout.inj)
    c.heartbeatInterval c.resendTimeout
  have hretries := n.resendRetryLimit.getD_eq_iff (fun _ _ => Setting.resendRetryLimit.inj)
    3 c.resendRetryLimit
  have hsize := n.maxMessageSize.getD_eq_iff (fun _ _ => Setting.maxMessageSize.inj)
    1048576 c.maxMessageSize
  have hbuffered := n.maxBufferedMessages.getD_eq_iff
    (fun _ _ => Setting.maxBufferedMessages.inj) 10000 c.maxBufferedMessages
  simp only [applyTo_eq_iff, hsender, htarget, hversion, hrole, hinterval, hlogon, hlogout, hgrace,
    hresend, hretries, hsize, hbuffered]
  constructor
  · intro h
    exact ⟨h.sender, h.target, h.beginString, h.role, h.heartbeatInterval, h.logonTimeout,
      h.logoutTimeout, h.testRequestGrace, h.resendTimeout, h.resendRetryLimit, h.maxMessageSize,
      h.maxBufferedMessages⟩
  · rintro ⟨sender, target, beginString, role, interval, logon, logout, grace, resend, retries,
      size, buffered⟩
    exact ⟨sender, target, beginString, role, interval, logon, logout, grace, resend, retries,
      size, buffered⟩

/-- Whatever is given, in whatever order: building succeeds exactly with the settings that are as
given and usable; if there are none, it says why. In particular a waiting time that was given stays
as given, also when it equals the default, and one that was not follows the interval. Whether a
second has a thousand units of time, as in a session, or any other number does not matter. -/
theorem buildIn_honours (second : Nat) (all : List Given) :
    (∀ c, (ofGiven all).buildIn second = .ok c ↔ Honours second all c ∧ Usable second c) ∧
      ((∃ c, (ofGiven all).buildIn second = .ok c) ∨
        ∃ reason, (ofGiven all).buildIn second = .error (.configuration reason)) := by
  constructor
  · intro c
    rw [buildIn_eq_ok_iff, honours_iff]
    simp only [and_assoc]
  · cases h : (ofGiven all).buildIn second with
    | ok c => exact .inl ⟨c, rfl⟩
    | error e =>
      obtain ⟨reason, rfl⟩ := explained_buildIn second _ e h
      exact .inr ⟨reason, rfl⟩

/-- A timeout of half a minute stays when the interval becomes a minute. -/
example : ((ofGiven [.setting (.logonTimeout 30000), .beginString "FIX.4.2", .target "B",
    .setting (.heartbeatInterval 60000), .sender "A"]).build.toOption.map fun c =>
      (c.logonTimeout, c.resendTimeout)) = some (30000, 60000) := by
  decide +kernel

end SessionSettings

end FixProtocol
