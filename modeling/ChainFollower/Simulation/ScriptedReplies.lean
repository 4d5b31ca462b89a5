import ChainFollower.Remote.Fetcher

/-!
# Scripted replies

A transport that gives prepared replies and keeps what it was asked and for how
long it was left waiting.
-/

namespace ChainFollower.Simulation

open Remote (Reply Request Transport)

/-- Prepared replies, of which the last repeats, and what happened so far. -/
structure ScriptedReplies where
  replies : List Reply
  /-- The requests so far, newest first. -/
  requests : List Request
  /-- The waits so far, newest first. -/
  waits : List Duration

namespace ScriptedReplies

/-- Prepared replies before the first request. -/
def start (replies : List Reply) : ScriptedReplies := ⟨replies, [], []⟩

/-- The next reply, and the replies after it. -/
def next : List Reply → Reply × List Reply
  | [] => (.failed "no reply", [])
  | [last] => (last, [last])
  | reply :: rest => (reply, rest)

/-- The transport of prepared replies. -/
def transport : Transport ScriptedReplies where
  send request script :=
    let (reply, replies) := next script.replies
    (reply, { script with replies, requests := request :: script.requests })
  rest span script := { script with waits := span :: script.waits }
  abandoned _ := false

end ScriptedReplies

end ChainFollower.Simulation
