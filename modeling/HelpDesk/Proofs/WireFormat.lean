import HelpDesk.Frame
import HelpDesk.Proofs.CodecLaws
import HelpDesk.Proofs.MomentTexts
import HelpDesk.Proofs.UuidTexts

/-! What goes over the wire comes back: every identifier, name, record and frame has a text that is read as the same
value, if its moments can be written, and whatever text is read has a canonical form. -/

namespace HelpDesk
open Json

namespace Json
variable {α : Type} {codec : Codec α} {shown : α → Prop}

/-- Encoding and decoding whole texts. The text of a value that was decoded is its canonical form. -/
structure Codec.RoundTrips (codec : Codec α) (shown : α → Prop) : Prop where
  decode_encode : ∀ v, shown v → (codec.encode? v).bind codec.decode? = some v
  encode_decode : ∀ text v, codec.decode? text = some v → shown v ∧
    ∃ canonical, codec.encode? v = some canonical ∧ (codec.decode? canonical).bind codec.encode? = some canonical

theorem Codec.Faithful.exists_encode (faithful : codec.Faithful shown) {v : α} (is : shown v) :
    ∃ text, codec.encode? v = some text ∧ codec.decode? text = some v := by
  obtain ⟨text, written, -, back⟩ := faithful.writes is
  refine ⟨String.ofList text, by simp [Codec.encode?, written], ?_⟩
  have whole := back []
  rw [List.append_nil] at whole
  simp [Codec.decode?, inputOf, whole, skipSpace]

theorem Codec.Faithful.roundTrips (faithful : codec.Faithful shown) : codec.RoundTrips shown where
  decode_encode v is := by
    obtain ⟨text, written, read⟩ := faithful.exists_encode is
    rw [written, Option.bind_some, read]
  encode_decode text v decoded := by
    have is : shown v := by
      unfold Codec.decode? at decoded
      split at decoded
      next w rest read =>
        obtain ⟨-, same⟩ := Option.ite_none_right_eq_some.mp decoded
        exact Option.some.inj same ▸ faithful.reads read
      next => cases decoded
    obtain ⟨canonical, written, read⟩ := faithful.exists_encode is
    exact ⟨is, canonical, written, by rw [read, Option.bind_some, written]⟩

theorem Codec.Faithful.of_iff (faithful : codec.Faithful shown) {displayed : α → Prop}
    (same : ∀ v, shown v ↔ displayed v) : codec.Faithful displayed :=
  (funext fun v => propext (same v) : shown = displayed) ▸ faithful

/-- A field that has to be there. -/
theorem Fields.Faithful.required {β : Type} {name : String} {rest : Fields β} {others : β → Prop}
    (value : codec.Faithful shown) (more : rest.Faithful others) (own : name ∉ rest.names) :
    (Fields.cons name codec .never rest).Faithful fun record => shown record.1 ∧ others record.2 :=
  .cons value (by simp [Absent.never]) (by simp [Absent.never]) own more

end Json

theorem uuid_faithful : Codec.uuid.Faithful fun _ => True :=
  Codec.spelled_faithful (fun u _ => ⟨_, rfl, u.ofString?_toString⟩) fun _ _ _ => trivial

theorem moment_faithful : Codec.moment.Faithful Moment.Writable :=
  Codec.spelled_faithful
    (fun m writable => by
      obtain ⟨cs, text, read⟩ := Moment.ofChars?_toChars? writable
      exact ⟨String.ofList cs, by simp [text], by simpa using read⟩)
    fun _ _ read => Moment.writable_of_ofChars? read

theorem ConversationId.codec_faithful : ConversationId.codec.Faithful fun _ => True :=
  uuid_faithful.map (fun _ => rfl) fun _ => rfl

theorem UserId.codec_faithful : UserId.codec.Faithful fun _ => True :=
  uuid_faithful.map (fun _ => rfl) fun _ => rfl

theorem MessageId.codec_faithful : MessageId.codec.Faithful fun _ => True :=
  uuid_faithful.map (fun _ => rfl) fun _ => rfl

theorem Role.codec_faithful : Role.codec.Faithful fun _ => True :=
  Codec.oneOf_faithful fun role => by cases role <;> decide

theorem Status.codec_faithful : Status.codec.Faithful fun _ => True :=
  Codec.oneOf_faithful fun status => by cases status <;> decide

theorem Identity.codec_faithful : Identity.codec.Faithful fun _ => True :=
  ((Codec.record_faithful
    (.required UserId.codec_faithful (.required Role.codec_faithful .nil (by decide)) (by decide))).map
      (fun _ => rfl) fun _ => rfl).of_iff (by simp)

theorem Message.codec_faithful : Message.codec.Faithful fun m => m.createdAt.Writable :=
  ((Codec.record_faithful
    (.required MessageId.codec_faithful
    (.required ConversationId.codec_faithful
    (.required UserId.codec_faithful
    (.required Codec.text_faithful
    (.required Codec.flag_faithful
    (.required Codec.flag_faithful
    (.required moment_faithful .nil (by decide)) (by decide)) (by decide)) (by decide)) (by decide)) (by decide))
      (by decide))).map (fun _ => rfl) fun _ => rfl).of_iff (by simp)

/-- The member of staff may be nobody, which is written as `null`; in an object the field may be left out. -/
theorem assignee_faithful : UserId.codec.optional.Faithful fun _ => True :=
  (UserId.codec_faithful.optional (by simp [UserId.codec, Codec.map, Codec.uuid, Codec.spelled, quote])).of_iff (by simp)

theorem Conversation.codec_faithful :
    Conversation.codec.Faithful fun c => c.createdAt.Writable ∧ c.updatedAt.Writable :=
  ((Codec.record_faithful
    (.required ConversationId.codec_faithful
    (.required UserId.codec_faithful
    (.cons assignee_faithful (by simp) (by simp) (by decide)
    (.required Codec.text_faithful
    (.required Status.codec_faithful
    (.required moment_faithful
    (.required moment_faithful .nil (by decide)) (by decide)) (by decide)) (by decide))) (by decide))
      (by decide))).map (fun _ => rfl) fun _ => rfl).of_iff (by simp)

theorem ChatFrame.codec_faithful : ChatFrame.codec.Faithful fun frame => frame.createdAt.Writable :=
  ((Codec.record_faithful
    (.required Codec.text_faithful
    (.required UserId.codec_faithful
    (.required moment_faithful
    (.required Codec.flag_faithful .nil (by decide)) (by decide)) (by decide)) (by decide))).map
      (fun _ => rfl) fun _ => rfl).of_iff (by simp)

theorem Summary.codec_faithful : Summary.codec.Faithful fun summary => summary.updatedAt.Writable :=
  ((Codec.record_faithful
    (.required ConversationId.codec_faithful
    (.required UserId.codec_faithful
    (.required Status.codec_faithful
    (.required moment_faithful .nil (by decide)) (by decide)) (by decide)) (by decide))).map
      (fun _ => rfl) fun _ => rfl).of_iff (by simp)

theorem ErrorFrame.codec_faithful : ErrorFrame.codec.Faithful fun _ => True :=
  ((Codec.record_faithful (.required Codec.text_faithful .nil (by decide))).map (fun _ => rfl) fun _ => rfl).of_iff
    (by simp)

/-- Everything that goes over the wire round-trips, whatever its strings hold. -/
theorem wire_round_trip :
    ConversationId.codec.RoundTrips (fun _ => True) ∧ UserId.codec.RoundTrips (fun _ => True) ∧
    MessageId.codec.RoundTrips (fun _ => True) ∧ Role.codec.RoundTrips (fun _ => True) ∧
    Status.codec.RoundTrips (fun _ => True) ∧ Identity.codec.RoundTrips (fun _ => True) ∧
    Message.codec.RoundTrips (fun m => m.createdAt.Writable) ∧
    Conversation.codec.RoundTrips (fun c => c.createdAt.Writable ∧ c.updatedAt.Writable) ∧
    ChatFrame.codec.RoundTrips (fun frame => frame.createdAt.Writable) ∧
    Summary.codec.RoundTrips (fun summary => summary.updatedAt.Writable) ∧
    Summary.codec.list.RoundTrips (fun list => ∀ summary ∈ list, summary.updatedAt.Writable) ∧
    ErrorFrame.codec.RoundTrips (fun _ => True) :=
  ⟨ConversationId.codec_faithful.roundTrips, UserId.codec_faithful.roundTrips, MessageId.codec_faithful.roundTrips,
    Role.codec_faithful.roundTrips, Status.codec_faithful.roundTrips, Identity.codec_faithful.roundTrips,
    Message.codec_faithful.roundTrips, Conversation.codec_faithful.roundTrips, ChatFrame.codec_faithful.roundTrips,
    Summary.codec_faithful.roundTrips, Summary.codec_faithful.list.roundTrips, ErrorFrame.codec_faithful.roundTrips⟩

/-- The end of a minute of a leap day, a minute less than a day behind UTC, with a text full of escapes. -/
theorem wire_round_trip_of_escapes :
    let frame : ChatFrame := ⟨"\"\\/\x01\r\n é 😀", ⟨Uuid.ofNat 7⟩, ⟨951868799999999999, -1439⟩, true⟩
    frame.createdAt.Writable ∧ (ChatFrame.codec.encode? frame).bind ChatFrame.codec.decode? = some frame := by
  intro frame
  have writable : frame.createdAt.Writable := ⟨by decide +kernel, by decide⟩
  obtain ⟨-, -, -, -, -, -, -, -, frames, -⟩ := wire_round_trip
  exact ⟨writable, frames.decode_encode frame writable⟩

end HelpDesk
