import HelpDesk.Dashboard

/-! Starting a conversation. The content and the label are trimmed and measured first; a party that has a
conversation which is not closed gets that one back. -/

namespace HelpDesk

inductive IntakeError
  | emptyContent
  | contentTooLong
  | labelTooLong
  | store (error : StoreError)
  deriving DecidableEq

namespace Intake

def maxContentBytes : Nat := 50000

def maxLabelChars : Nat := 255

end Intake

def IntakeError.message : IntakeError → String
  | emptyContent => "Message content cannot be empty"
  | contentTooLong => "Message content exceeds " ++ toString Intake.maxContentBytes ++ " bytes"
  | labelTooLong => "Label exceeds " ++ toString Intake.maxLabelChars ++ " characters"
  | store error => "Conversation creation failed: " ++ error.message

namespace Intake

/-- The label to store: the trimmed one, or the default if there is none or it is blank. -/
def labelOf (label : Option String) : String :=
  match label.map Text.trim with
  | some l => if l.isEmpty then Conversation.defaultLabel else l
  | none => Conversation.defaultLabel

def check (content : String) (label : Option String) : Except IntakeError (String × String) :=
  let content := Text.trim content
  let label := labelOf label
  if content.isEmpty then .error .emptyContent
  else if maxContentBytes < content.utf8ByteSize then .error .contentTooLong
  else if maxLabelChars < label.length then .error .labelTooLong
  else .ok (content, label)

/-- Starts a conversation with its opening message and announces it, or finds the one that is there. -/
def start (identity : Identity) (content : String) (label : Option String) : Program (Except IntakeError Start) :=
  match check content label with
  | .error error => return .error error
  | .ok (content, label) => do
    match ← Program.store (.start identity label content) with
    | .error error => return .error (.store error)
    | .ok (outcome : Start) =>
      match outcome with
      | .created c _ => Dashboard.announce c
      | .alreadyOpen _ => pure ()
      return .ok outcome

end Intake

end HelpDesk
