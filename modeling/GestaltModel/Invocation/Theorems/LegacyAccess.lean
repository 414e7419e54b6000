import GestaltModel.Invocation.Theorems.AppAccessPage

namespace Invocation

open Text (trimSpace)

section Convert

variable {p : AppAccessProfile} {cat : Catalog} {d : AppAccessDefaults} {op : CatalogOperation}
variable {enabled existed existedAt : List String} {id : String}

end Convert

end Invocation
