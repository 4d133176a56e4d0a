import Baskets.Basket
import Baskets.Cache
import Baskets.Fingerprint
import Baskets.Reading.Streamed

/-!
# Baskets of objects

An `Interpretation` reads the entries of baskets as objects of one type.  The first basket that
shows all of the type gives a model, and the model is all that is said of a basket from then on;
before that, and for types without a model, the values themselves are read.  Models are kept in a
cache under a key made of all that they depend on: the type, the options and the layouts that the
type can reach.
-/

namespace Baskets

structure Interpretation where
  type : StreamType
  registry : Registry
  options : ReadOptions := {}

/-- what a basket of objects comes to -/
inductive BasketArray where
  | model (model : Built Model)
  | values (values : List Value)

namespace Interpretation

variable (interpretation : Interpretation)

def boolText (b : Bool) : String := if b then "true" else "false"

/-- a number in exactly so many hexadecimal digits -/
def hexText : (digits n : Nat) → String
  | 0, _ => ""
  | digits + 1, n => hexText digits (n / 16) ++ (Nat.digitChar (n % 16)).toString

/-- the key of the model in a cache -/
def key : String :=
  let options := interpretation.options
  interpretation.type.signature ++ " header=" ++ boolText options.header ++
    " tobject_header=" ++ boolText options.objectHead ++
    " offsets=" ++ options.indexFormat.outputType ++
    " layouts=" ++ hexText 16 (interpretation.registry.fingerprint interpretation.type).toNat

/-- reads an entry from its start, with or without a generator -/
def read (bytes : Bytes) (generator : Option Generator) : Except Fault Value × Progress :=
  (interpretation.registry.read interpretation.type none (.ofOptions interpretation.options)).run
    { cursor := { data := bytes }, generator }

/-! ## values -/

/-- the values of all entries, up to the first that has none -/
def values : List (Except Fault Bytes) → Except Fault (List Value)
  | [] => .ok []
  | entry :: rest => do
    let value ← (interpretation.read (← entry) none).1
    return value :: (← values rest)

/-- reads every entry of a basket -/
def interpret (basket : Basket) : Except Fault (List Value) := do
  interpretation.values (← basket.entries)

/-! ## models -/

/-- goes on reading entries until one of them shows all of the type -/
def discoverFrom (g : Generator) : List (Except Fault Bytes) → Except Fault (Option Model)
  | [] => .ok none
  | entry :: rest => do
    match interpretation.read (← entry) (some g.beginEntry) with
    | (.error (.ungeneratable _), _) => return none
    | (.error fault, _) => throw fault
    | (.ok _, progress) =>
      let g := progress.generator.getD g
      if g.incomplete then discoverFrom g rest else return some (← g.model)

/-- the model that a basket gives; nothing when the type has none, or the basket shows too little -/
def discover (basket : Basket) : Except Fault (Option Model) := do
  interpretation.discoverFrom {} (← basket.entries)

/-- the model from the cache, or else from the basket -/
def compile (basket : Basket) (cache : Cache Model) :
    Except Fault (Option (Built Model)) × Cache Model :=
  cache.getOrBuild interpretation.key fun cache => (interpretation.discover basket, cache)

/-! ## arrays -/

/-- the model, or else the values -/
def array (basket : Basket) (cache : Cache Model) : Except Fault BasketArray × Cache Model :=
  match interpretation.compile basket cache with
  | (.error fault, cache) => (.error fault, cache)
  | (.ok (some model), cache) => (.ok (.model model), cache)
  | (.ok none, cache) => ((interpretation.interpret basket).map .values, cache)

/-- what each basket comes to, up to the first that comes to nothing -/
def arrays : List Basket → Cache Model → Except Fault (List BasketArray) × Cache Model
  | [], cache => (.ok [], cache)
  | basket :: rest, cache =>
    match interpretation.array basket cache with
    | (.error fault, cache) => (.error fault, cache)
    | (.ok first, cache) =>
      let (others, cache) := arrays rest cache
      (others.map (first :: ·), cache)

/-- what the baskets at some positions of a file come to -/
def readBaskets (codecs : Algorithm → Codec) (file : Bytes) (positions : List Nat)
    (cache : Cache Model) : Except Fault (List BasketArray) × Cache Model :=
  match Basket.readAll codecs true file positions with
  | .error fault => (.error fault, cache)
  | .ok baskets => interpretation.arrays baskets cache

end Interpretation

end Baskets
