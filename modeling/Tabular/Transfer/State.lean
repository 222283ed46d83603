/-! # Life of a transfer

A transfer is idle until it starts, running while its workers are, and then stays in one of
three terminal states. Its two workers are named by what they do: one pulls, one pushes.
-/
namespace Tabular.Transfer

inductive State where
  | idle
  | running
  | completed
  | failed
  | cancelled
  deriving DecidableEq, Repr, Inhabited

namespace State

def name : State → String
  | idle => "idle"
  | running => "running"
  | completed => "completed"
  | failed => "failed"
  | cancelled => "cancelled"

def isTerminal : State → Bool
  | completed | failed | cancelled => true
  | idle | running => false

def all : List State := [idle, running, completed, failed, cancelled]

end State

inductive Stage where
  | pull
  | push
  deriving DecidableEq, Repr

def Stage.name : Stage → String
  | .pull => "puller"
  | .push => "pusher"

end Tabular.Transfer
