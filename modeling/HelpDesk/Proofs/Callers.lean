import HelpDesk.Http.Caller
import HelpDesk.Proofs.Activities
import HelpDesk.Proofs.IdentifierForms
import HelpDesk.Proofs.LetterCases
import HelpDesk.Proofs.TrimmedTexts

/-! Who makes a request is what its two headers say, whatever bytes they hold: which requests have a caller and which one,
what is wrong with each of the others, and that the texts of an identity stand for it again. -/

namespace HelpDesk.Http

section Values
variable {bytes : List UInt8} {b : UInt8} {s text : String}

/-- A byte that a header value has as text: visible ASCII, a blank or a tab. -/
def Visible (b : UInt8) : Prop :=
  32 ≤ b.toNat ∧ b.toNat < 127 ∨ b.toNat = 9

/-- A blank or a tab. -/
def Gap (b : UInt8) : Prop :=
  b.toNat = 32 ∨ b.toNat = 9

instance : DecidablePred Visible :=
  fun b => inferInstanceAs (Decidable (_ ∧ _ ∨ b.toNat = 9))

instance : DecidablePred Gap :=
  fun b => inferInstanceAs (Decidable (_ ∨ b.toNat = 9))

def charOf (b : UInt8) : Char :=
  Char.ofNat b.toNat

/-- The text of a header value: what its bytes stand for, without the gaps at both ends. -/
structure HeaderText (bytes : List UInt8) (text : String) : Prop where
  visible : ∀ b ∈ bytes, Visible b
  parts : ∃ before middle after, bytes = before ++ middle ++ after ∧ (∀ b ∈ before ++ after, Gap b) ∧
    (∀ b ∈ middle.head?, ¬ Gap b) ∧ (∀ b ∈ middle.getLast?, ¬ Gap b) ∧ text.toList = middle.map charOf

theorem visible?_eq_some_iff :
    visible? bytes = some s ↔ (∀ b ∈ bytes, Visible b) ∧ String.ofList (bytes.map charOf) = s := by
  have all : (bytes.all fun b => (32 ≤ b.toNat && b.toNat < 127) || b.toNat == 9) = true ↔ ∀ b ∈ bytes, Visible b := by
    simp [Visible]
  rw [visible?, Option.ite_none_right_eq_some, all, Option.some.injEq]
  rfl

theorem visible?_eq_none_iff : visible? bytes = none ↔ ∃ b ∈ bytes, ¬ Visible b := by
  rw [Option.eq_none_iff_forall_ne_some]
  simp [visible?_eq_some_iff]

theorem isBlank_charOf (visible : Visible b) : Text.isBlank (charOf b) = true ↔ Gap b := by
  have table : ∀ n < 127, 32 ≤ n ∨ n = 9 → (Text.isBlank (Char.ofNat n) = true ↔ n = 32 ∨ n = 9) := by
    decide
  rcases visible with ⟨low, high⟩ | tab
  · exact table _ high (.inl low)
  · exact table _ (by omega) (.inr tab)

theorem isBlank_charOf_eq_false (visible : Visible b) : Text.isBlank (charOf b) = false ↔ ¬ Gap b := by
  rw [← isBlank_charOf visible, Bool.not_eq_true]

theorem trimmed_iff_gapless {middle : List UInt8} (visible : ∀ b ∈ middle, Visible b)
    (same : text.toList = middle.map charOf) :
    Text.Trimmed text ↔ (∀ b ∈ middle.head?, ¬ Gap b) ∧ ∀ b ∈ middle.getLast?, ¬ Gap b := by
  have first : (∀ c ∈ text.toList.head?, Text.isBlank c = false) ↔ ∀ b ∈ middle.head?, ¬ Gap b := by
    rw [same, List.head?_map, Option.forall_mem_map]
    exact forall₂_congr fun b there => isBlank_charOf_eq_false (visible b (List.mem_of_mem_head? there))
  have last : (∀ c ∈ text.toList.getLast?, Text.isBlank c = false) ↔ ∀ b ∈ middle.getLast?, ¬ Gap b := by
    rw [same, List.getLast?_map, Option.forall_mem_map]
    exact forall₂_congr fun b there => isBlank_charOf_eq_false (visible b (List.mem_of_getLast? there))
  exact ⟨fun trimmed => ⟨first.mp trimmed.first, last.mp trimmed.last⟩, fun ends => ⟨first.mpr ends.1, last.mpr ends.2⟩⟩

theorem blanks_iff_gaps {part : List UInt8} (visible : ∀ b ∈ part, Visible b) :
    (∀ c ∈ part.map charOf, Text.isBlank c = true) ↔ ∀ b ∈ part, Gap b := by
  rw [List.forall_mem_map]
  exact forall₂_congr fun b there => isBlank_charOf (visible b there)

theorem visible_parts {before middle after : List UInt8} (visible : ∀ b ∈ before ++ middle ++ after, Visible b) :
    (∀ b ∈ middle, Visible b) ∧ ∀ b ∈ before ++ after, Visible b := by
  simp only [List.forall_mem_append] at visible ⊢
  exact ⟨visible.1.2, visible.1.1, visible.2⟩

theorem headerText_iff : HeaderText bytes text ↔ (visible? bytes).map Text.trim = some text := by
  have read : (visible? bytes).map Text.trim = some text ↔
      (∀ b ∈ bytes, Visible b) ∧ Text.trim (String.ofList (bytes.map charOf)) = text := by
    simp [Option.map_eq_some_iff, visible?_eq_some_iff, and_assoc]
  rw [read, Text.trim_eq_iff, String.toList_ofList]
  constructor
  · rintro ⟨visible, before, middle, after, rfl, gaps, first, last, same⟩
    obtain ⟨inner, outer⟩ := visible_parts visible
    refine ⟨visible, (trimmed_iff_gapless inner same).mpr ⟨first, last⟩, before.map charOf, after.map charOf, ?_, ?_⟩
    · rw [same, List.map_append, List.map_append]
    · rw [← List.map_append]
      exact (blanks_iff_gaps outer).mpr gaps
  · rintro ⟨visible, trimmed, first, last, same, blanks⟩
    obtain ⟨front, after, rfl, fronts, rfl⟩ := List.map_eq_append_iff.mp same
    obtain ⟨before, middle, rfl, rfl, middles⟩ := List.map_eq_append_iff.mp fronts
    obtain ⟨inner, outer⟩ := visible_parts visible
    rw [← List.map_append] at blanks
    obtain ⟨first, last⟩ := (trimmed_iff_gapless inner middles.symm).mp trimmed
    exact ⟨visible, before, middle, after, rfl, (blanks_iff_gaps outer).mp blanks, first, last, middles.symm⟩

theorem charOf_byteOf {c : Char} (ascii : c.toNat < 128) : charOf (byteOf c) = c := by
  rw [charOf, byteOf, UInt8.toNat_ofNat_of_lt' (ascii.trans (by decide)), Char.ofNat_toNat]

theorem utf8Encode_of_ascii {cs : List Char} (ascii : ∀ c ∈ cs, c.toNat < 128) :
    cs.utf8Encode = (cs.map byteOf).toByteArray := by
  have single {c : Char} (small : c.toNat < 128) : String.utf8EncodeChar c = [byteOf c] := by
    unfold String.utf8EncodeChar
    exact if_pos (Nat.le_of_lt_succ small)
  induction cs with
  | nil => rfl
  | cons c cs ih =>
    rw [List.forall_mem_cons] at ascii
    rw [List.utf8Encode_cons, ih ascii.2, List.utf8Encode, List.flatMap_singleton, single ascii.1, ← List.toByteArray_append]
    rfl

theorem bytesOf_of_ascii (ascii : ∀ c ∈ s.toList, c.toNat < 128) : bytesOf s = s.toList.map byteOf := by
  have encoded : s.toByteArray = s.toList.utf8Encode := by
    rw [← String.toByteArray_ofList, String.ofList_toList]
  rw [bytesOf, String.toUTF8, encoded, utf8Encode_of_ascii ascii, List.toList_data_toByteArray]

/-- A text without blanks is what a header value says that is made of it. -/
theorem headerText_bytesOf (ink : ∀ c ∈ s.toList, 32 < c.toNat ∧ c.toNat < 127) : HeaderText (bytesOf s) s := by
  have ascii : ∀ c ∈ s.toList, c.toNat < 128 := fun c there => (ink c there).2.trans (by decide)
  have back : s.toList = (bytesOf s).map charOf := by
    rw [bytesOf_of_ascii ascii, List.map_map]
    exact (List.map_id _).symm.trans (List.map_congr_left fun c there => (charOf_byteOf (ascii c there)).symm)
  have inked : ∀ b ∈ bytesOf s, 32 < b.toNat ∧ b.toNat < 127 := by
    rw [bytesOf_of_ascii ascii, List.forall_mem_map]
    intro c there
    rw [byteOf, UInt8.toNat_ofNat_of_lt' ((ascii c there).trans (by decide))]
    exact ink c there
  have gapless : ∀ b ∈ bytesOf s, ¬ Gap b := by
    intro b there gap
    have bounds := inked b there
    unfold Gap at gap
    omega
  exact {
    visible := fun b there => .inl ⟨(inked b there).1.le, (inked b there).2⟩
    parts := ⟨[], bytesOf s, [], by simp, by simp, fun b there => gapless b (List.mem_of_mem_head? there),
      fun b there => gapless b (List.mem_of_getLast? there), back⟩ }

end Values

section Requests
variable {α : Type} {r : Request} {name refusal text : String} {bytes : List UInt8}

theorem identityHeader_missing (absent : r.header? name = none) : r.identityHeader name = .error .unauthorized := by
  rw [Request.identityHeader, absent]

theorem identityHeader_invisible (there : r.header? name = some bytes) (other : ∃ b ∈ bytes, ¬ Visible b) :
    r.identityHeader name = .error (.badRequest (name ++ " is not valid ASCII")) := by
  simp only [Request.identityHeader, there, visible?_eq_none_iff.mpr other]

theorem identityHeader_text (there : r.header? name = some bytes) (holds : HeaderText bytes text) :
    r.identityHeader name = .ok text := by
  obtain ⟨s, shown, trimmed⟩ := Option.map_eq_some_iff.mp (headerText_iff.mp holds)
  simp only [Request.identityHeader, there, shown, trimmed]

/-- What comes of a header that has to be there and has to say something that means one thing or another. -/
inductive Request.Heard (r : Request) (name refusal : String) (Means : α → String → Prop) : Except ApiError α → Prop
  | missing (absent : r.header? name = none) : Heard r name refusal Means (.error .unauthorized)
  | invisible {bytes : List UInt8} (there : r.header? name = some bytes) (other : ∃ b ∈ bytes, ¬ Visible b) :
    Heard r name refusal Means (.error (.badRequest (name ++ " is not valid ASCII")))
  | meaningless {bytes : List UInt8} {text : String} (there : r.header? name = some bytes) (holds : HeaderText bytes text)
      (nothing : ∀ a, ¬ Means a text) : Heard r name refusal Means (.error (.badRequest (name ++ refusal)))
  | meant {bytes : List UInt8} {text : String} {a : α} (there : r.header? name = some bytes) (holds : HeaderText bytes text)
      (means : Means a text) : Heard r name refusal Means (.ok a)

theorem Request.heard_ok_iff {Means : α → String → Prop} {a : α} : r.Heard name refusal Means (.ok a) ↔
    ∃ bytes text, r.header? name = some bytes ∧ HeaderText bytes text ∧ Means a text := by
  constructor
  · rintro ⟨⟩
    next there holds means => exact ⟨_, _, there, holds, means⟩
  · rintro ⟨bytes, text, there, holds, means⟩
    exact .meant there holds means

theorem Request.Heard.status {Means : α → String → Prop} {error : ApiError}
    (heard : r.Heard name refusal Means (.error error)) :
    error.status = 401 ∧ r.header? name = none ∨ error.status = 400 ∧ r.header? name ≠ none := by
  cases heard with
  | missing absent => exact .inl ⟨rfl, absent⟩
  | invisible there other => exact .inr ⟨rfl, there ▸ Option.some_ne_none _⟩
  | meaningless there holds nothing => exact .inr ⟨rfl, there ▸ Option.some_ne_none _⟩

/-- What is made of a header by a reader of its text. -/
def Request.understood (r : Request) (name refusal : String) (read : String → Option α) : Except ApiError α :=
  (r.identityHeader name).bind fun text => (read text).elim (.error (.badRequest (name ++ refusal))) .ok

theorem Request.understood_eq_iff {read : String → Option α} {Means : α → String → Prop} {outcome : Except ApiError α}
    (known : ∀ text a, read text = some a ↔ Means a text) :
    r.understood name refusal read = outcome ↔ r.Heard name refusal Means outcome := by
  constructor
  · rintro rfl
    unfold understood
    cases there : r.header? name with
    | none =>
      rw [identityHeader_missing there]
      exact .missing there
    | some bytes =>
      cases shown : visible? bytes with
      | none =>
        have other := visible?_eq_none_iff.mp shown
        rw [identityHeader_invisible there other]
        exact .invisible there other
      | some s =>
        have holds : HeaderText bytes (Text.trim s) := headerText_iff.mpr (by rw [shown, Option.map_some])
        rw [identityHeader_text there holds]
        cases found : read (Text.trim s) with
        | none =>
          simp only [Except.bind, found, Option.elim_none]
          exact .meaningless there holds fun a means => by simp [(known _ a).mpr means] at found
        | some a =>
          simp only [Except.bind, found, Option.elim_some]
          exact .meant there holds ((known _ a).mp found)
  · intro heard
    unfold understood
    cases heard with
    | missing absent =>
      rw [identityHeader_missing absent]
      rfl
    | invisible there other =>
      rw [identityHeader_invisible there other]
      rfl
    | @meaningless bytes text there holds nothing =>
      have unread : read text = none :=
        Option.eq_none_iff_forall_ne_some.mpr fun a found => nothing a ((known text a).mp found)
      rw [identityHeader_text there holds]
      simp only [Except.bind, unread, Option.elim_none]
    | meant there holds means =>
      rw [identityHeader_text there holds]
      simp only [Except.bind, (known _ _).mpr means, Option.elim_some]

/-- The text is one of the forms of the user's identifier. -/
def NamesUser (user : UserId) (text : String) : Prop :=
  user.uuid.Form text.toList

/-- The text is the name of the role but for the case of ASCII letters. -/
def NamesRole (role : Role) (text : String) : Prop :=
  text.toList.map Char.toLower = role.toString.toList

def Request.HeardUser (r : Request) : Except ApiError UserId → Prop :=
  r.Heard userHeader " must be a UUID" NamesUser

def Request.HeardRole (r : Request) : Except ApiError Role → Prop :=
  r.Heard roleHeader " is not a known role" NamesRole

theorem Request.callerId_eq_iff {outcome : Except ApiError UserId} : r.callerId = outcome ↔ r.HeardUser outcome := by
  have same : r.callerId = r.understood userHeader " must be a UUID" fun text => (Uuid.ofString? text).map .mk := by
    unfold callerId understood
    cases r.identityHeader userHeader with
    | error => rfl
    | ok text => simp only [Except.bind]; cases Uuid.ofString? text <;> rfl
  rw [same]
  refine understood_eq_iff fun text user => ?_
  rw [Option.map_eq_some_iff, NamesUser, ← Uuid.ofChars?_eq_some_iff]
  exact ⟨by rintro ⟨uuid, read, rfl⟩; exact read, fun read => ⟨user.uuid, read, rfl⟩⟩

theorem Request.callerRole_eq_iff {outcome : Except ApiError Role} : r.callerRole = outcome ↔ r.HeardRole outcome := by
  have same : r.callerRole = r.understood roleHeader " is not a known role" Role.ofString? := by
    unfold callerRole understood
    cases r.identityHeader roleHeader with
    | error => rfl
    | ok text => simp only [Except.bind]; cases Role.ofString? text <;> rfl
  rw [same]
  exact understood_eq_iff fun text role => Role.ofString?_eq_some_iff

/-- Who makes a request, or what is wrong with it. The second header counts only if the first one names a user. -/
inductive Request.Judged (r : Request) : Except ApiError Identity → Prop
  | user {error : ApiError} (heard : r.HeardUser (.error error)) : Judged r (.error error)
  | role {user : UserId} {error : ApiError} (known : r.HeardUser (.ok user)) (heard : r.HeardRole (.error error)) :
    Judged r (.error error)
  | both {user : UserId} {role : Role} (known : r.HeardUser (.ok user)) (named : r.HeardRole (.ok role)) :
    Judged r (.ok ⟨user, role⟩)

theorem Request.caller_eq_iff {outcome : Except ApiError Identity} : r.caller = outcome ↔ r.Judged outcome := by
  constructor
  · rintro rfl
    unfold caller
    cases first : r.callerId with
    | error error => exact .user (callerId_eq_iff.mp first)
    | ok user =>
      cases second : r.callerRole with
      | error error => exact .role (callerId_eq_iff.mp first) (callerRole_eq_iff.mp second)
      | ok role => exact .both (callerId_eq_iff.mp first) (callerRole_eq_iff.mp second)
  · intro judged
    unfold caller
    cases judged with
    | user heard => rw [callerId_eq_iff.mpr heard]
    | role known heard =>
      rw [callerId_eq_iff.mpr known, callerRole_eq_iff.mpr heard]
      rfl
    | both known named =>
      rw [callerId_eq_iff.mpr known, callerRole_eq_iff.mpr named]
      rfl

/-- Both headers are there; one has a form of the user's identifier, the other the name of the role. -/
structure Request.Presents (r : Request) (identity : Identity) : Prop where
  user : ∃ bytes text, r.header? userHeader = some bytes ∧ HeaderText bytes text ∧ NamesUser identity.user text
  role : ∃ bytes text, r.header? roleHeader = some bytes ∧ HeaderText bytes text ∧ NamesRole identity.role text

theorem Request.judged_ok_iff {identity : Identity} : r.Judged (.ok identity) ↔ r.Presents identity := by
  constructor
  · rintro ⟨⟩
    next known named => exact ⟨heard_ok_iff.mp known, heard_ok_iff.mp named⟩
  · exact fun presents => .both (heard_ok_iff.mpr presents.user) (heard_ok_iff.mpr presents.role)

/-- Is the header not there that has to be read next? -/
def Request.Lacks (r : Request) : Prop :=
  r.header? userHeader = none ∨ (∃ user, r.HeardUser (.ok user)) ∧ r.header? roleHeader = none

/-- Do the two headers hold the texts of the identity? -/
structure Request.Carries (r : Request) (identity : Identity) : Prop where
  user : r.header? userHeader = some (bytesOf (toString identity.user))
  role : r.header? roleHeader = some (bytesOf (toString identity.role))

theorem Request.HeardUser.unique {first second : Except ApiError UserId} (one : r.HeardUser first)
    (other : r.HeardUser second) : first = second :=
  (callerId_eq_iff.mpr one).symm.trans (callerId_eq_iff.mpr other)

theorem Request.Judged.status {error : ApiError} (judged : r.Judged (.error error)) :
    error.status = 401 ∧ r.Lacks ∨ error.status = 400 ∧ ¬ r.Lacks := by
  cases judged with
  | user heard =>
    rcases heard.status with ⟨status, absent⟩ | ⟨status, there⟩
    · exact .inl ⟨status, .inl absent⟩
    · refine .inr ⟨status, ?_⟩
      rintro (absent | ⟨⟨user, known⟩, -⟩)
      · exact there absent
      · cases heard.unique known
  | role known heard =>
    rcases heard.status with ⟨status, absent⟩ | ⟨status, there⟩
    · exact .inl ⟨status, .inr ⟨⟨_, known⟩, absent⟩⟩
    · refine .inr ⟨status, ?_⟩
      rintro (missing | ⟨-, absent⟩)
      · cases known.unique (.missing missing)
      · exact there absent

theorem visible_roleName (role : Role) : ∀ c ∈ role.toString.toList, 32 < c.toNat ∧ c.toNat < 127 := by
  have all : role.toString.toList.all (fun c => decide (32 < c.toNat ∧ c.toNat < 127)) = true := by
    cases role <;> decide
  exact fun c there => of_decide_eq_true (List.all_eq_true.mp all c there)

theorem Request.Carries.presents {identity : Identity} (carries : r.Carries identity) : r.Presents identity where
  user := ⟨_, _, carries.user, headerText_bytesOf identity.user.uuid.visible_toString, identity.user.uuid.form_toString⟩
  role := by
    have lowered : NamesRole identity.role identity.role.toString := by
      unfold NamesRole
      cases identity.role <;> decide
    exact ⟨_, _, carries.role, headerText_bytesOf (visible_roleName identity.role), lowered⟩

/-- A request as a party sends it carries the identity of the party. -/
theorem carries_ofParty (party : Identity) (method target : String) (headers : List (String × List UInt8)) (body : String) :
    (Request.ofParty party method target headers body).Carries party where
  user := by
    have same : (userHeader.toLower == userHeader) = true := by decide +kernel
    simp [Request.header?, Request.ofParty, same]
  role := by
    have other : (userHeader.toLower == roleHeader) = false := by decide +kernel
    have same : (roleHeader.toLower == roleHeader) = true := by decide +kernel
    simp [Request.header?, Request.ofParty, other, same]

/-- A request has a caller exactly if its two headers present one. Else the first header that is missing or wrong tells what
the error is: nothing is said of the role before the identifier is known to be one. The texts of an identity present it. -/
theorem caller_extraction (r : Request) :
    (∀ identity, r.caller = .ok identity ↔ r.Presents identity) ∧
    (∀ outcome, r.caller = outcome ↔ r.Judged outcome) ∧
    (∀ error, r.caller = .error error → error.status = 401 ∧ r.Lacks ∨ error.status = 400 ∧ ¬ r.Lacks) ∧
    ∀ identity, r.Carries identity → r.caller = .ok identity := by
  have accepts (identity : Identity) : r.caller = .ok identity ↔ r.Presents identity :=
    Request.caller_eq_iff.trans Request.judged_ok_iff
  exact ⟨accepts, fun _ => Request.caller_eq_iff, fun _ refused => (Request.caller_eq_iff.mp refused).status,
    fun identity carries => (accepts identity).mpr carries.presents⟩

/-- The identifier comes as a name in capital letters, the role in both cases, and both with gaps around them. -/
theorem caller_extraction_of_capitals :
    let r : Request := ⟨"GET", "/", [("X-User-Id", bytesOf " URN:UUID:0000002A-0000-4000-8000-00000000000b"),
      ("x-user-role", bytesOf "\tSuperAdmin ")], [], false⟩
    let unnamed : Request := { r with headers := r.headers.take 1 }
    let party : Identity := ⟨⟨.ofNat 0x2A_0000_4000_8000_00000000000B⟩, .superadmin⟩
    r.caller = .ok party ∧ r.Presents party ∧ unnamed.caller = .error .unauthorized ∧ unnamed.Lacks ∧
      (Request.ofParty party "GET" "/" [] "").caller = .ok party := by
  intro r unnamed party
  have accepted : r.caller = .ok party := by decide +kernel
  have refused : unnamed.caller = .error .unauthorized := by decide +kernel
  have lacks : unnamed.Lacks := by
    rcases (caller_extraction unnamed).2.2.1 _ refused with ⟨-, lacks⟩ | ⟨status, -⟩
    · exact lacks
    · cases status
  exact ⟨accepted, ((caller_extraction r).1 party).mp accepted, refused, lacks,
    (caller_extraction _).2.2.2 party (carries_ofParty party "GET" "/" [] "")⟩

end Requests

end HelpDesk.Http
