import LineShell.Proofs.PlainLines
/-!
The order of texts is that of their bytes: a text that comes before another one, letter by letter, also
does so byte by byte.
-/

namespace LineShell.Bytes

variable {m n : Nat} {behind after : Bytes}

end LineShell.Bytes
