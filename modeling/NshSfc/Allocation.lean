import NshSfc.Library.Numerals
import NshSfc.Python
import Mathlib.Data.Finset.Range
import Mathlib.Algebra.BigOperators.Group.Finset.Basic

namespace NshSfc.Allocation

open Library Python

inductive LpError
  | keyError (key : String)
  | valueError
  | pulpError (name : String)
deriving DecidableEq

structure LpVariable where
  name : List String
  lowBound : Int
  upBound : Int
deriving DecidableEq

abbrev Dict (α : Type) := List (String × α)

def Dict.update {α : Type} (d e : Dict α) : Dict α := e ++ d

def Dict.get {α : Type} (d : Dict α) (key : String) : Except LpError α :=
  match d.lookup key with
  | some a => .ok a
  | none => .error (.keyError key)

def LpVariable.dicts (name : String) (is js ks : List String) (lowBound upBound : Int) :
    Dict (Dict (Dict LpVariable)) :=
  is.map fun i ↦ (i, js.map fun j ↦ (j, ks.map fun k ↦ (k, ⟨[name, i, j, k], lowBound, upBound⟩)))

def characters (s : String) : List String := s.toList.map String.singleton

inductive Sense
  | le
  | eq
deriving DecidableEq

structure LpConstraint where
  name : String
  terms : List (Int × LpVariable)
  sense : Sense
  rhs : Int

structure LpProblem where
  objective : LpVariable
  constraints : List LpConstraint

def LpProblem.names (prob : LpProblem) : List String := prob.constraints.map LpConstraint.name

/-- `prob += constraint, name`: names must not overlap. -/
def LpProblem.addConstraint (prob : LpProblem) (c : LpConstraint) : Except LpError LpProblem :=
  if c.name ∈ prob.names then .error (.pulpError c.name)
  else .ok { prob with constraints := prob.constraints ++ [c] }

def LpProblem.addAll (prob : LpProblem) (cs : List (Except LpError LpConstraint)) :
    Except LpError LpProblem :=
  cs.foldlM (fun prob c ↦ do prob.addConstraint (← c)) prob

abbrev Variables := Dict (Dict (Dict LpVariable))

def summand (xRkn : Variables) (r k n : String) : Except LpError (Int × LpVariable) := do
  let x ← (← (← Dict.get xRkn r).get k).get n
  return (1, x)

def requests (Kr : List ℕ) : List (String × List String) :=
  (numerals Kr.length).zip (Kr.map numerals)

/-- The first loop of `do_lp`. The index `R[i]` is a string, so its characters become keys. -/
def xRkn (nodes : ℕ) (Kr : List ℕ) : Variables :=
  (requests Kr).foldl
    (fun x r ↦ Dict.update x (LpVariable.dicts "x" (characters r.1) r.2 (numerals nodes) 0 1)) []

section Constraints

variable (x : Variables) (alpha : LpVariable) (nodes : ℕ) (Kr : List ℕ)

def loadConstraint (n : String) : Except LpError LpConstraint := do
  let sums ← (requests Kr).mapM fun r ↦ r.2.mapM fun k ↦ summand x r.1 k n
  return ⟨"(1)" ++ n, sums.flatten ++ [(-1, alpha)], .le, 0⟩

def spreadConstraint (n : String) (r : String × List String) : Except LpError LpConstraint := do
  let sum ← r.2.mapM fun k ↦ summand x r.1 k n
  return ⟨"(2)" ++ n ++ r.1, sum, .le, 1⟩

def nodeConstraint (r k : String) : Except LpError LpConstraint := do
  let sum ← (numerals nodes).mapM fun n ↦ summand x r k n
  return ⟨"(3)" ++ r ++ k, sum, .eq, 1⟩

end Constraints

def doLp (nodes : ℕ) (Kr : List ℕ) : Except LpError LpProblem :=
  match Kr.max? with
  | none => .error .valueError
  | some bound => do
    let alpha : LpVariable := ⟨["alpha"], 0, bound⟩
    let x := xRkn nodes Kr
    let prob ← LpProblem.addAll ⟨alpha, []⟩ ((numerals nodes).map (loadConstraint x alpha Kr))
    let prob ← prob.addAll
      ((numerals nodes).flatMap fun n ↦ (requests Kr).map (spreadConstraint x n))
    prob.addAll ((requests Kr).flatMap fun r ↦ r.2.map (nodeConstraint x nodes r.1))

section Solutions

def LpConstraint.value (c : LpConstraint) (v : LpVariable → Int) : Int :=
  (c.terms.map fun t ↦ t.1 * v t.2).sum

def LpConstraint.Holds (c : LpConstraint) (v : LpVariable → Int) : Prop :=
  match c.sense with
  | .le => c.value v ≤ c.rhs
  | .eq => c.value v = c.rhs

def LpProblem.variables (prob : LpProblem) : List LpVariable :=
  prob.objective :: prob.constraints.flatMap fun c ↦ c.terms.map Prod.snd

structure LpProblem.Feasible (prob : LpProblem) (v : LpVariable → Int) : Prop where
  bounds : ∀ x ∈ prob.variables, x.lowBound ≤ v x ∧ v x ≤ x.upBound
  constraints : ∀ c ∈ prob.constraints, c.Holds v

end Solutions

section Decoding

abbrev Cells := List (List (Option Int))

def emptyCells (Kr : List ℕ) : Cells := Kr.map fun K ↦ List.replicate K none

def LpVariable.text (x : LpVariable) : List Char := ['_'].intercalate (x.name.map String.toList)

def decodeStep (v : LpVariable → Int) (xRes : Cells) (x : LpVariable) : Except PyError Cells :=
  if x.text.head? = some 'x' ∧ v x = 1 then do
    let nameTemp := x.text.splitOn '_'
    let n ← intOfString (← getItem nameTemp 3)
    let r ← intOfString (← getItem nameTemp 1)
    let cells ← getItem xRes (r - 1)
    let k ← intOfString (← getItem nameTemp 2)
    setItem xRes (r - 1) (← setItem cells (k - 1) (some (n - 1)))
  else .ok xRes

/-- What `do_lp` returns for the values `v`, if PuLP lists the variables as in `vars`. -/
def decode (v : LpVariable → Int) (Kr : List ℕ) (vars : List LpVariable) : Except PyError Cells :=
  vars.foldlM (decodeStep v) (emptyCells Kr)

end Decoding

end NshSfc.Allocation
