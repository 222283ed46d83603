import Tabular.Source.Memory
import Tabular.Source.Delimited
import Tabular.Source.Feed

/-! # Sources

A source yields batches of one layout until its end. Closing it is always possible and makes
every later read fail.
-/
namespace Tabular

inductive Source where
  | memory (s : MemorySource)
  | delimited (s : DelimitedSource)
  | feed (s : Feed)

namespace Source

def layout : Source → Layout
  | memory s => s.layout
  | delimited s => s.layout
  | feed s => s.layout

def read : Source → Except Error (Option Batch) × Source
  | memory s => let (r, s) := s.read; (r, memory s)
  | delimited s => let (r, s) := s.read; (r, delimited s)
  | feed s => let (r, s) := s.read; (r, feed s)

def close : Source → Source
  | memory s => memory s.close
  | delimited s => delimited s.close
  | feed s => feed s.close

end Source
end Tabular
