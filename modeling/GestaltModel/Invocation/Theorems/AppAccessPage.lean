import GestaltModel.Invocation.AppAccessPage

namespace Invocation

open Text (Trimmed trimSpace)

variable {ids : List String} {p : AppAccessProfile}

section Save

variable {app : String} {enabled : List String} {page static : Option Catalog}
variable {d : AppAccessDefaults} {existing : Option AppAccessProfile} {now : Int} {id : String}

section Page

end Page

end Save

section Necessity

end Necessity

end Invocation
