import P101Report.Model.Types

/-!
# Lifetimes of stored events

`src/lifetime_common.c` and the conditions of `src/lifetime.c` under which a stored event is printed
as the birth of a lifetime. The end of a lifetime is found by a forward scan of the stored events.
-/

set_option autoImplicit false

namespace P101Report

/-! ## Names -/

/-- `p101_report_resource_kind_name`. -/
def resourceKindName : ResourceKind → Text
  | .fdOpen => lit "fd-open"
  | .fdClose => lit "fd-close"
  | .alloc => lit "alloc"
  | .free => lit "free"
  | .realloc => lit "realloc"
  | .fork => lit "fork"
  | .spawn => lit "spawn"
  | .exec => lit "exec"
  | .execFail => lit "exec-fail"
  | .generic => lit "resource"

/-- `p101_report_generic_operation_name`. -/
def genericOperationName : GenericKind → Text
  | .acquire => lit "acquire"
  | .release => lit "release"
  | .replace => lit "replace"
  | .transfer => lit "transfer"

/-! ## Births -/

/-- `ptr = (birth->kind == RESOURCE_ALLOC) ? birth->ptr : birth->new_ptr`. -/
def allocBirthPtr (birth : ResourceEvent) : Option Text :=
  if birth.kind = .alloc then birth.ptr else birth.newPtr

/-- `p101_report_generic_birth_id`. -/
def genericBirthId (birth : ResourceEvent) : Option Text :=
  if birth.genericKind = .acquire then birth.resourceId else birth.relatedId

/-- An `ALLOC` record, or a `REALLOC` record with a new pointer other than `"-"`. -/
def isAllocBirth (event : ResourceEvent) : Bool :=
  event.kind == .alloc ||
    (event.kind == .realloc && event.newPtr.isSome && event.newPtr != some dash)

/-- An `ACQUIRE`, or a `REPLACE` or `TRANSFER` with a related id. -/
def isGenericBirth (event : ResourceEvent) : Bool :=
  event.kind == .generic &&
    (event.genericKind == .acquire ||
      ((event.genericKind == .replace || event.genericKind == .transfer) &&
        event.relatedId.isSome))

/-- The events that the reports render as births. -/
def isBirth (event : ResourceEvent) : Bool :=
  event.kind == .fdOpen || isAllocBirth event || isGenericBirth event

/-! ## Ends -/

/-- `p101_report_find_fd_lifetime_end`. -/
def findFdLifetimeEnd (resources : List ResourceEvent) (birth : ResourceEvent) :
    Option ResourceEvent :=
  resources.find? fun event =>
    decide (birth.sequence < event.sequence) && event.kind == .fdClose && event.pid == birth.pid &&
      event.fd == birth.fd

/-- `p101_report_find_alloc_lifetime_end`. -/
def findAllocLifetimeEnd (resources : List ResourceEvent) (birth : ResourceEvent) :
    Option ResourceEvent :=
  resources.find? fun event =>
    decide (birth.sequence < event.sequence) && event.pid == birth.pid &&
      (allocBirthPtr birth).isSome && (event.kind == .free || event.kind == .realloc) &&
      event.ptr.isSome && event.ptr == allocBirthPtr birth

/-- A `RELEASE`, or a `REPLACE` or `TRANSFER` with a related id. -/
def isGenericRelease (event : ResourceEvent) : Bool :=
  event.genericKind == .release ||
    ((event.genericKind == .replace || event.genericKind == .transfer) && event.relatedId.isSome)

/-- `p101_report_find_generic_lifetime_end`. -/
def findGenericLifetimeEnd (resources : List ResourceEvent) (birth : ResourceEvent) :
    Option ResourceEvent :=
  match genericBirthId birth with
  | none => none
  | some resourceId =>
    resources.find? fun event =>
      decide (birth.sequence < event.sequence) && event.kind == .generic &&
        event.pid == birth.pid && event.resourceClass.isSome && event.resourceId.isSome &&
        isGenericRelease event && event.resourceClass == birth.resourceClass &&
        event.resourceId == some resourceId

/-- The end that the reports print for a birth. -/
def findLifetimeEnd (resources : List ResourceEvent) (birth : ResourceEvent) :
    Option ResourceEvent :=
  if birth.kind = .fdOpen then findFdLifetimeEnd resources birth
  else if birth.kind = .alloc ∨ birth.kind = .realloc then findAllocLifetimeEnd resources birth
  else findGenericLifetimeEnd resources birth

/-- `p101_report_lifetime_duration_ns`. -/
def lifetimeDurationNs (birth death : ResourceEvent) : Option Nat :=
  if birth.monotonicNsAvailable = 0 ∨ death.monotonicNsAvailable = 0 ∨
      death.monotonicNs < birth.monotonicNs then none
  else some (death.monotonicNs - birth.monotonicNs)

end P101Report
