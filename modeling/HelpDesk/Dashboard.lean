import HelpDesk.Program

/-! The dashboards of the staff. All of them are in one room. A dashboard gets a snapshot of the conversations that
are not closed, and after it each change as it is announced. It joins holding and is released with the
snapshot, so a change that is announced while the snapshot is read comes after it. -/

namespace HelpDesk.Dashboard

/-- Shows the dashboards a conversation as it now is. -/
def announce (c : Conversation) : Program Unit :=
  .broadcast .dashboard (.summaries [.ofConversation c])

def snapshot : Program (Except StoreError (List Summary)) := do
  match ← Program.store .listActive with
  | .error error => return .error error
  | .ok (cs : List Conversation) => return .ok (cs.map .ofConversation)

/-- Queues the snapshot for a dashboard that joined holding, and releases it: what was announced since it
joined comes after the snapshot. It is released also when the snapshot fails. -/
def sendSnapshot (session : SessionId) : Program (Except StoreError Unit) := do
  match ← snapshot with
  | .error error =>
    Program.rooms (.release .dashboard session none)
    return .error error
  | .ok list =>
    Program.rooms (.release .dashboard session (Frame.summaries list).pack?)
    return .ok ()

end HelpDesk.Dashboard
