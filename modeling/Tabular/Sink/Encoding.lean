import Tabular.Table.Batch

/-! # Sinks that encode

A sink that hands batches to an encoder and counts the rows of those it took. An encoder may fail
at any batch and at its end. Closing the sink, whatever comes of it, ends the encoder for good. The
rows counted stay below `2 ^ 64`.
-/
namespace Tabular

class Encoder (ε : Type) where
  write : ε → Batch → Except Error Unit × ε
  finish : ε → Except Error Unit × ε

structure EncodingSink (ε : Type) where
  label : String
  encoder : ε
  closed : Bool := false
  rowsWritten : Nat := 0

namespace EncodingSink

variable {ε : Type} [Encoder ε]

def write (s : EncodingSink ε) (b : Batch) : Except Error Unit × EncodingSink ε :=
  if s.closed then (.error (.sink (.closed s.label)), s)
  else match Encoder.write s.encoder b with
    | (.ok _, encoder) => (.ok (), { s with encoder, rowsWritten := s.rowsWritten + b.rows })
    | (.error e, encoder) => (.error e, { s with encoder })

def close (s : EncodingSink ε) : Except Error Unit × EncodingSink ε :=
  if s.closed then (.ok (), s)
  else
    let (result, encoder) := Encoder.finish s.encoder
    (result, { s with encoder, closed := true })

end EncodingSink
end Tabular
