import GestaltModel.Invocation.AppAccess

-- The page on which a user switches the operations of an app on and off.
namespace Invocation

end Invocation
