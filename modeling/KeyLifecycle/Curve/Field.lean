/-! Multiples by repeated doubling, and inverses modulo a prime. -/
namespace KeyLifecycle.Curve

def multiple {P : Type} (add : P → P → P) (zero : P) (n : Nat) (x : P) : P :=
  if n = 0 then zero
  else
    let rest := multiple add zero (n / 2) (add x x)
    if n % 2 = 1 then add x rest else rest
termination_by n
decreasing_by omega

/-- The inverse, where the modulus is a prime: a power, that is, a multiple by multiplication. -/
def inverse {p : Nat} (one x : Fin p) : Fin p := multiple (· * ·) one (p - 2) x

end KeyLifecycle.Curve
