import Zeitnot.Journal
/-!
Keepers of a journal: where the lines of a journal go, and the one keeper that whoever was given
none shares with the others.
-/
set_option autoImplicit false

namespace Zeitnot
open Number

inductive Outlet
  /-- To a receiver, which puts its label in front. -/
  | receiver (label : String)
  /-- To a receiver of leveled lines, which drops those below its threshold. -/
  | leveled (threshold : Int)
  | screen
  deriving DecidableEq, Repr

def infoLevel : Int := 20

structure Delivery where
  received : List String
  shown : String
  deriving DecidableEq, Repr

def Outlet.deliver (o : Outlet) (lines : List String) : Delivery :=
  match o with
  | .receiver label => ⟨lines.map (label ++ ·), ""⟩
  | .leveled threshold =>
    ⟨if threshold ≤ infoLevel then lines.map ("INFO:" ++ ·) else [], ""⟩
  | .screen => ⟨[], String.join (lines.map (· ++ "\n"))⟩

structure Keeper where
  outlet : Outlet
  quiet : Bool
  deriving DecidableEq, Repr

def Keeper.tell {S : Type} [Scalar S] (k : Keeper) (e : Event S) : Except Fault Delivery :=
  return k.outlet.deliver (← (Journal.mk k.quiet []).write e).lines

structure Keepers where
  all : List Keeper
  shared : Option Nat
  deriving DecidableEq, Repr

namespace Keepers

def none : Keepers := ⟨[], Option.none⟩

def hire (ks : Keepers) (k : Keeper) : Nat × Keepers :=
  (ks.all.length, { ks with all := ks.all ++ [k] })

/-- The shared keeper; `k` becomes it if there is none. -/
def obtain (ks : Keepers) (k : Keeper) : Nat × Keepers :=
  match ks.shared with
  | some i => (i, ks)
  | Option.none =>
    let (i, ks) := ks.hire k
    (i, { ks with shared := some i })

def obtainDefault (ks : Keepers) : Nat × Keepers := ks.obtain ⟨.screen, false⟩

def share (ks : Keepers) (i : Option Nat) : Keepers := { ks with shared := i }

end Keepers
end Zeitnot
