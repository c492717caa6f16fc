/-!
# Kubernetes and Gateway API objects

The fields of the API objects that the modelled code reads. A Go pointer that the code only tests
against `nil` is an `Option`. A `metav1.Time` is its count of seconds, the precision the API
server keeps. Go's embedded `ObjectMeta` is a field `objectMeta`, so `gc.Name` is
`gc.objectMeta.name`.
-/

namespace NginxGateway

/-- `metav1.ObjectMeta`: the identity and age of an object. -/
structure ObjectMeta where
  /-- `Namespace`. -/
  «namespace» : String
  /-- `Name`. -/
  name : String
  /-- `CreationTimestamp`, in seconds. -/
  creationTimestamp : Int
deriving DecidableEq, Repr, Inhabited

/-- `types.NamespacedName`. -/
structure NamespacedName where
  /-- `Namespace`. -/
  «namespace» : String
  /-- `Name`. -/
  name : String
deriving DecidableEq, Repr, Inhabited

/-- `client.ObjectKeyFromObject`: the namespace and name of an object. -/
def objectKeyFromObject (objectMeta : ObjectMeta) : NamespacedName :=
  ⟨objectMeta.«namespace», objectMeta.name⟩

namespace V1beta1

/-- `HTTPHeaderMatch`. -/
structure HTTPHeaderMatch where
  /-- `Name`. -/
  name : String
  /-- `Value`. -/
  value : String
deriving DecidableEq, Repr, Inhabited

/-- `HTTPQueryParamMatch`. -/
structure HTTPQueryParamMatch where
  /-- `Name`. -/
  name : String
  /-- `Value`. -/
  value : String
deriving DecidableEq, Repr, Inhabited

/-- `HTTPRouteMatch`, without the path match, which the prioritizer leaves to NGINX. -/
structure HTTPRouteMatch where
  /-- `Headers`. -/
  headers : List HTTPHeaderMatch
  /-- `QueryParams`. -/
  queryParams : List HTTPQueryParamMatch
  /-- `Method`: the method to match, if any. -/
  method : Option String
deriving DecidableEq, Repr, Inhabited

/-- `ParametersReference`: the object holding a class's configuration. -/
structure ParametersReference where
  /-- `Group`. -/
  group : String
  /-- `Kind`. -/
  kind : String
  /-- `Name`. -/
  name : String
deriving DecidableEq, Repr, Inhabited

/-- `GatewayClassSpec`. -/
structure GatewayClassSpec where
  /-- `ControllerName`: the controller that manages gateways of this class. -/
  controllerName : String
  /-- `ParametersRef`. -/
  parametersRef : Option ParametersReference
deriving DecidableEq, Repr, Inhabited

/-- `GatewayClass`. -/
structure GatewayClass where
  /-- The embedded `ObjectMeta`. -/
  objectMeta : ObjectMeta
  /-- `Spec`. -/
  spec : GatewayClassSpec
deriving DecidableEq, Repr, Inhabited

end V1beta1

/-! ## Field errors

The one kind of `field.Error` the modelled code builds, with the text `Error()` gives it. -/

namespace Field

/-- `field.Path`: the names from the root of the object down to a field. -/
def Path := List String

/-- `field.NewPath(name)`. -/
def newPath (name : String) : Path := [name]

/-- `path.Child(name)`. -/
def Path.child (path : Path) (name : String) : Path := List.concat path name

/-- `path.String()`: the names joined by dots. -/
def Path.toString (path : Path) : String := ".".intercalate path

/-- `field.Error` of type `ErrorTypeForbidden`. -/
structure Error where
  /-- `Field`: the path of the forbidden field. -/
  field : String
  /-- `Detail`. -/
  detail : String
deriving DecidableEq, Repr, Inhabited

/-- `field.Forbidden(path, detail)`. -/
def forbidden (path : Path) (detail : String) : Error := ⟨path.toString, detail⟩

/-- `Error()`: the field, the error type and the detail. -/
def Error.error (err : Error) : String := err.field ++ ": Forbidden: " ++ err.detail

end Field

end NginxGateway
