import Zeitnot.Number.Binary64
set_option autoImplicit false

namespace Zeitnot.Number

def pointed (places n : Nat) : String :=
  if places = 0 then toString n
  else
    let unit := Nat.pow 10 places
    let tail := toString (n % unit)
    s!"{n / unit}." ++ String.ofList (List.replicate (places - tail.length) '0') ++ tail

/-- The sign is kept by a number that rounds to zero. -/
def fixedText (places : Nat) (x : Float) : String :=
  match Binary64.decode x with
  | .nan => "nan"
  | .infinite negative => if negative then "-inf" else "inf"
  | .finite negative m q =>
    let (a, b) := scaled m 2 q
    (if negative then "-" else "") ++ pointed places (roundHalfEven (a * Nat.pow 10 places) b)

example : pointed 2 12345 = "123.45" ∧ pointed 3 7 = "0.007" ∧ pointed 0 12 = "12" := by
  decide +kernel

end Zeitnot.Number
