import ArgBinding.Order

/-! The command that places an order. -/

open ArgBinding

/-- Writes the order, its log and an error that is not answered. -/
def main (arguments : List String) : IO UInt32 := do
  let transcript := Order.place arguments
  IO.eprint transcript.logText
  IO.print transcript.outputText
  match transcript.error with
  | none => return 0
  | some error =>
      IO.eprintln error.message
      return 1
