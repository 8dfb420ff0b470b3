import Parley.Engine.Assembly
import Parley.Settings.Basic

/-!
# From settings to a context

* `Settings.assembly` is the context that settings describe, as far as they do: the ledger and the
  dispatcher are still to be given.
-/

namespace Parley

/-- What settings give for a context. -/
def Settings.assembly {α β : Type} (s : Settings) : Assembly α β where
  participantId := some s.participantId
  policy := s.retry
  batchSize := s.rounds.batchSize.toNat
  autoAgree := s.autoAgree

end Parley
