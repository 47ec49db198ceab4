import SharedViews.Client.Address
import SharedViews.Client.Timestamp
import SharedViews.Scope.Membership

/-! Clients: the open connections behind contexts. -/
namespace SharedViews

/-- One open connection, named by the context it serves. -/
structure Client where
  id : ContextId
  identicon : String
  connectedAt : Timestamp
  remote : Option Address
  deriving DecidableEq, Inhabited, Repr

end SharedViews
