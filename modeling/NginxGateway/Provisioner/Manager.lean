/-!
# Starting the provisioner

`StartManager` creates a controller-runtime manager, registers one controller for each watched
object type, adds the event loop to the manager and starts it. A step that returns an error ends
the function at once, with the error wrapped in a text that names the step
(`fmt.Errorf("...: %w", err)`). The model writes this as a run in `ExceptT` over the log of
calls made, so a run can be evaluated for any choice of the errors controller-runtime returns.

controller-runtime is not among the sources. The model records, in order, the calls
`StartManager` makes into it that can return an error, and takes the error each call returns as
the parameter `env`. Left out: the scheme set-up (`utilruntime.Must` panics rather than
returning an error), `GetConfigOrDie` (exits the process), the signal handler, the logger and
the event channel.
-/

namespace NginxGateway
namespace Provisioner

/-- `Config`: the configuration of the provisioner mode, without its `Logger`. -/
structure Config where
  /-- `GatewayClassName`: the class whose gateways get a data plane. -/
  gatewayClassName : String
  /-- `GatewayCtlrName`: the controller name a class must reference. -/
  gatewayCtlrName : String
deriving DecidableEq, Repr

/-- The types of the objects the provisioner watches. -/
inductive ObjectType
  /-- `gatewayv1beta1.GatewayClass`. -/
  | gatewayClass
  /-- `gatewayv1beta1.Gateway`. -/
  | gateway
deriving DecidableEq, Repr

/-- `%T` of a pointer to an object of the type. -/
def ObjectType.typeName : ObjectType → String
  | .gatewayClass => "*v1beta1.GatewayClass"
  | .gateway => "*v1beta1.Gateway"

/-- `controller.Option`: the one the provisioner passes. -/
inductive ControllerOption
  /-- `controller.WithK8sPredicate(predicate.GatewayClassPredicate{ControllerName: name})`. -/
  | withGatewayClassPredicate (controllerName : String)
deriving DecidableEq, Repr

/-- An entry of `controllerRegCfgs`. -/
structure ControllerRegCfg where
  /-- `objectType`. -/
  objectType : ObjectType
  /-- `options`. -/
  options : List ControllerOption
deriving DecidableEq, Repr

/-- `controllerRegCfgs`: the controllers to register, in order. -/
def controllerRegCfgs (cfg : Config) : List ControllerRegCfg :=
  [⟨.gatewayClass, [.withGatewayClassPredicate cfg.gatewayCtlrName]⟩, ⟨.gateway, []⟩]

/-- What the event loop is built from that depends on the configuration. -/
structure EventLoop where
  /-- The class name `newEventHandler` gets. -/
  handlerGatewayClassName : String
  /-- `GatewayClassName` of the status updater's `UpdaterConfig`. -/
  statusGatewayClassName : String
  /-- `UpdateGatewayClassStatus` of the status updater's `UpdaterConfig`. -/
  updateGatewayClassStatus : Bool
  /-- The objects the first event batch fetches by name, with their names. -/
  firstBatchObjects : List (ObjectType × String)
  /-- The object types the first event batch lists. -/
  firstBatchObjectLists : List ObjectType
deriving DecidableEq, Repr

/-- `eventLoop`, from `statusUpdater`, `handler` and `firstBatchPreparer`. -/
def eventLoop (cfg : Config) : EventLoop where
  handlerGatewayClassName := cfg.gatewayClassName
  statusGatewayClassName := cfg.gatewayClassName
  updateGatewayClassStatus := true
  firstBatchObjects := [(.gatewayClass, cfg.gatewayClassName)]
  firstBatchObjectLists := [.gateway]

/-- A call of `StartManager` into controller-runtime that can return an error. -/
inductive Call
  /-- `manager.New(clusterCfg, options)`. -/
  | newManager
  /-- `controller.Register(ctx, regCfg.objectType, mgr, eventCh, regCfg.options...)`. -/
  | register (regCfg : ControllerRegCfg)
  /-- `mgr.Add(eventLoop)`. -/
  | add (eventLoop : EventLoop)
  /-- `mgr.Start(ctx)`. -/
  | start
deriving DecidableEq, Repr

/-- The error `StartManager` returns when a call returns `err`: the `fmt.Errorf` of each call
site, and `mgr.Start`'s error as it is. -/
def wrapError : Call → String → String
  | .newManager, err => "cannot build runtime manager: " ++ err
  | .register regCfg, err =>
      "cannot register controller for " ++ regCfg.objectType.typeName ++ ": " ++ err
  | .add _, err => "cannot register event loop: " ++ err
  | .start, err => err

/-- A run of `StartManager`: the calls made so far, and an early return with an error. -/
abbrev StartM := ExceptT String (StateM (List Call))

/-- Make a call, and return from `StartManager` if it fails. -/
def call (env : Call → Option String) (c : Call) : StartM Unit := do
  modify (·.concat c)
  match env c with
  | some err => throw (wrapError c err)
  | none => pure ()

/-- `StartManager(cfg)`, where `env` gives the error each call returns. -/
def startManager (cfg : Config) (env : Call → Option String) : StartM Unit := do
  call env .newManager
  (controllerRegCfgs cfg).forM fun regCfg => call env (.register regCfg)
  call env (.add (eventLoop cfg))
  call env .start

end Provisioner
end NginxGateway
