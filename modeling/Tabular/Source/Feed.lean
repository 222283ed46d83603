import Tabular.Format
import Tabular.Table.Batch

/-! # Feeds

A source over a reader that decodes a file: batches and errors in turn, and from then on either
the end or one error for ever. A panic of the reader leaves the source closed.
-/
namespace Tabular

inductive FeedItem where
  | batch (b : Batch)
  | error (e : Error)
  | panic (text : String)

/-- A source over a reader; `items` is none once it is closed. -/
structure Feed where
  format : Format
  layout : Layout
  items : Option (List FeedItem)
  last : Option Error := none

namespace Feed

def ofItems (format : Format) (layout : Layout) (items : List FeedItem) : Feed :=
  { format, layout, items := some items }

def read (f : Feed) : Except Error (Option Batch) × Feed :=
  match f.items with
  | none => (.error (.source (.closed f.format.name)), f)
  | some [] => match f.last with
    | none => (.ok none, f)
    | some e => (.error e, f)
  | some (.batch b :: rest) => (.ok (some b), { f with items := some rest })
  | some (.error e :: rest) => (.error e, { f with items := some rest })
  | some (.panic text :: _) =>
    (.error (.source (.taskFailed f.format.name text)), { f with items := none })

def close (f : Feed) : Feed := { f with items := none }

end Feed
end Tabular
