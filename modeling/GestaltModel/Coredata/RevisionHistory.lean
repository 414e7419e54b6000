import GestaltModel.Coredata.ChangeRequests
import GestaltModel.Pagination.Basic

namespace Coredata

-- An id that can be part of a cursor. It is `AppendRequest` that makes sure of the first two.
structure AppVersionChangeRequest.PlainID (request : AppVersionChangeRequest) : Prop where
  nonempty : request.id ≠ ""
  trimmed : Text.Trimmed request.id
  plain : ':' ∉ request.id.toList

instance : DecidablePred AppVersionChangeRequest.PlainID := fun request =>
  decidable_of_iff
    (request.id ≠ "" ∧ Text.Trimmed request.id ∧ ':' ∉ request.id.toList)
    ⟨fun ⟨h₁, h₂, h₃⟩ => ⟨h₁, h₂, h₃⟩, fun ⟨h₁, h₂, h₃⟩ => ⟨h₁, h₂, h₃⟩⟩

namespace RevisionHistory

open AppVersionChangeRequestService

section

variable (app : String) (limit : Int) (store : ChangeRequestStore)

-- The empty cursor means that there is no next page.
def toPage (page : AppVersionChangeRequestPage) : Pagination.Page AppVersionChangeRequest String where
  items := page.requests
  next := if page.nextCursor = "" then none else some page.nextCursor

def fetch (cursor : String) : Option (Pagination.Page AppVersionChangeRequest String) :=
  (listRequestsByAppPage app limit cursor store).toOption.map toPage

-- What a client gets that starts with the empty cursor and follows the next cursors of the pages.
def collect (n : Nat) : Option (List AppVersionChangeRequest) :=
  Pagination.follow (fetch app limit store) n ""

def requests : List AppVersionChangeRequest :=
  store.getAll.filter (·.app = Text.trimSpace app)

-- The last page is reached, and the pages contain exactly the requests of the app in their order.
def Lossless : Prop :=
  ∃ n pages, collect app limit store n = some pages ∧ pages.Perm (requests app store) ∧
    pages.Pairwise fun left right => right.Older left

-- A page that ends with `last` leads to `next`. The cursor has only the second of the timestamp, no
-- year of more than four digits and not the zero time.
def Leads (last next : AppVersionChangeRequest) : Prop :=
  Time.Marshals last.timestamp ∧ Time.truncate Time.second last.timestamp ≠ 0 ∧
  (next.timestamp < Time.truncate Time.second last.timestamp ∨
    (next.timestamp = Time.truncate Time.second last.timestamp ∧ next.id < last.id))

instance {last next : AppVersionChangeRequest} : Decidable (Leads last next) :=
  inferInstanceAs <| Decidable (_ ∧ _ ∧ (_ ∨ _))

-- All requests are in the range of the index, and each full page leads to the request after it.
structure Resumable : Prop where
  listed : ∀ request ∈ requests app store, Listed (Text.trimSpace app) request
  leads : ∀ {k last next},
    (sortChangeRequestsDesc (requests app store))[(k + 1) * pageLimit limit - 1]? = some last →
    (sortChangeRequestsDesc (requests app store))[(k + 1) * pageLimit limit]? = some next →
    Leads last next

end

end RevisionHistory
end Coredata
