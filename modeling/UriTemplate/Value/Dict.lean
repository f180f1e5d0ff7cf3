import UriTemplate.Bindings
import UriTemplate.Value

namespace UriTemplate

/-- An exact number. A finite one is `core * 2 ^ twos * 5 ^ fives`, and neither two nor five divides
the core, so that each number has one form. -/
inductive Number where
  | zero
  | finite (negative : Bool) (core : Nat) (twos fives : Int)
  | infinite (negative : Bool)
  deriving DecidableEq, Repr

namespace Number

def takeFactor (p : Nat) : (fuel : Nat) → Nat → Nat × Nat
  | 0, n => (n, 0)
  | fuel + 1, n =>
      if n % p = 0 then
        let (core, k) := takeFactor p fuel (n / p)
        (core, k + 1)
      else (n, 0)

def ofScaled (negative : Bool) (n : Nat) (twos fives : Int) : Number :=
  if n = 0 then zero
  else
    let (n, i) := takeFactor 2 n.log2 n
    let (n, j) := takeFactor 5 n.log2 n
    finite negative n (twos + i) (fives + j)

def ofInt (n : Int) : Number := ofScaled (n < 0) n.natAbs 0 0

end Number

def Binary64.number? : Binary64 → Option Number
  | nan => none
  | infinite negative => some (.infinite negative)
  | finite negative m e => some (.ofScaled negative m e 0)

def Decimal.number? : Decimal → Option Number
  | nan .. => none
  | infinite negative => some (.infinite negative)
  | finite negative c e => some (.ofScaled negative c e e)

def Scalar.number? : Scalar → Option Number
  | .boolean b => some (.ofInt (if b then 1 else 0))
  | .integer n => some (.ofInt n)
  | .float x => x.number?
  | _ => none

def Value.number? : Value → Option Number
  | .scalar s => s.number?
  | .decimal d => d.number?
  | .complex re im => if im.number? = some .zero then re.number? else none
  | _ => none

namespace Value

def sameScalar : Scalar → Scalar → Bool
  | .string a, .string b => a = b
  | .date a, .date b => a = b
  | .dateTime a, .dateTime b => a.isSameMoment b
  | _, _ => false

def sameComplex (re im re' im' : Binary64) : Bool :=
  re.number?.isSome && im.number?.isSome && re.number? = re'.number? && im.number? = im'.number?

def sameRange (start stop step start' stop' step' : Int) : Bool :=
  let n := rangeLength start stop step
  n = rangeLength start' stop' step' && (n = 0 || start = start') && (n ≤ 1 || step = step')

def sameOther : Value → Value → Bool
  | null, null => true
  | scalar a, scalar b => sameScalar a b
  | complex re im, complex re' im' => sameComplex re im re' im'
  | range a b c, range a' b' c' => sameRange a b c a' b' c'
  | bytes a, bytes b => a = b
  | time h m, time h' m' => h = h' && m = m'
  | _, _ => false

/-- Whether two values are the same key. Numbers are, where they are equal, and tuples item by
item. What is not a number though it is of a kind of numbers is the same as nothing. -/
def sameKey : Value → Value → Bool
  | tuple [], tuple [] => true
  | tuple (a :: as), tuple (b :: bs) => sameKey a b && sameKey (tuple as) (tuple bs)
  | a, b =>
      match a.number?, b.number? with
      | some m, some n => m = n
      | none, none => sameOther a b
      | _, _ => false

def setOfList (members : List Value) : Value :=
  let distinct := members.foldl (fun xs x => if xs.any (sameKey x) then xs else xs ++ [x]) []
  let integer? : Value → Option Int
    | scalar (.integer n) => some n
    | _ => none
  match distinct.mapM integer? with
  | some ns => .set ((ns.mergeSort).map integer)
  | none => .set distinct

end Value

abbrev Dict := List (Value × Value)

namespace Dict

def insert (same : Value → Value → Bool) (key value : Value) : Dict → Dict
  | [] => [(key, value)]
  | (k, v) :: rest =>
      if same k key then (k, value) :: rest else (k, v) :: insert same key value rest

def merge (d newer : Dict) : Dict := newer.foldl (fun d x => insert Value.sameKey x.1 x.2 d) d

def ofList (same : Value → Value → Bool) (entries : List (Value × Value)) : Dict :=
  entries.foldl (fun d x => insert same x.1 x.2 d) []

def ofBindings (m : Bindings Value) : Dict := m.entries.map fun x => (.string x.1, x.2)

/-- The value of a name. Of several entries for it the last counts. -/
def get? (d : Dict) (name : Text) : Option Value :=
  (d.reverse.find? fun x => Value.sameKey (.string name) x.1).map Prod.snd

end Dict

/-- Whether a value counts as nothing: `null`, false, zero, or a container without content. -/
def Value.isEmpty : Value → Bool
  | null => true
  | scalar (.string t) => t.isEmpty
  | list xs | tuple xs | set xs => xs.isEmpty
  | dict xs => xs.isEmpty
  | bytes bs | byteArray bs => bs.isEmpty
  | range start stop step => rangeLength start stop step = 0
  | x => x.number? = some .zero

end UriTemplate
