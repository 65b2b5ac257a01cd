import ForgeDeno.JsString

namespace ForgeDeno

/-- The subclasses of `WasmRuntimeError` that the runtime raises. -/
inductive WasmErrorClass where
  | manifest
  | integrity
  | compatibility
  | codec
  | closed
  | cancelled
  | deadlineExceeded
  | pool
  | adapter
  | invocation
  | guest
deriving DecidableEq

def WasmErrorClass.code : WasmErrorClass → JsString
  | manifest => js "WASM_MANIFEST_INVALID"
  | integrity => js "WASM_INTEGRITY_FAILED"
  | compatibility => js "WASM_INCOMPATIBLE"
  | codec => js "WASM_CODEC_INVALID"
  | closed => js "WASM_CLOSED"
  | cancelled => js "WASM_CANCELLED"
  | deadlineExceeded => js "WASM_DEADLINE_EXCEEDED"
  | pool => js "WASM_POOL_UNAVAILABLE"
  | adapter => js "WASM_ADAPTER_REJECTED"
  | invocation => js "WASM_INVOCATION_FAILED"
  | guest => js "WASM_GUEST_FAILED"

structure WasmRuntimeError where
  cls : WasmErrorClass
  code : JsString
  message : JsString
  retryable : Bool
  field : Option JsString
deriving DecidableEq

/-- Whatever a `throw` or a rejection carries; `caused` is a runtime error with a `cause`. -/
inductive Thrown where
  | wasm (error : WasmRuntimeError)
  | caused (error : WasmRuntimeError) (cause : Thrown)
  | rangeError (message : JsString)
  | typeError (message : JsString)
  | syntaxError
  | foreign (tag : Nat)
deriving DecidableEq

/-- The error that `instanceof WasmRuntimeError` recognises. -/
def Thrown.runtime? : Thrown → Option WasmRuntimeError
  | .wasm error => some error
  | .caused error _ => some error
  | _ => none

def WasmErrorClass.error (cls : WasmErrorClass) (message : JsString) : WasmRuntimeError :=
  ⟨cls, cls.code, message, false, none⟩

def wasmManifestError (message : JsString) : Thrown := .wasm (WasmErrorClass.manifest.error message)

def wasmIntegrityError (message : JsString) : Thrown :=
  .wasm (WasmErrorClass.integrity.error message)

def wasmCompatibilityError (message : JsString) : Thrown :=
  .wasm (WasmErrorClass.compatibility.error message)

def wasmCodecError (message : JsString) : Thrown := .wasm (WasmErrorClass.codec.error message)

def wasmClosedError : WasmRuntimeError :=
  WasmErrorClass.closed.error (js "the GoForge component runtime is closed")

def wasmCancelledError : WasmRuntimeError :=
  WasmErrorClass.cancelled.error (js "the GoForge component call was cancelled")

def wasmDeadlineExceededError : WasmRuntimeError :=
  WasmErrorClass.deadlineExceeded.error (js "the GoForge component call exceeded its deadline")

def wasmPoolError (message : JsString) : WasmRuntimeError := WasmErrorClass.pool.error message

def wasmAdapterError (message : JsString) : WasmRuntimeError := WasmErrorClass.adapter.error message

def wasmInvocationError (message : JsString) : WasmRuntimeError :=
  WasmErrorClass.invocation.error message

/-- `new WasmGuestError(code, message, options)`; an empty code falls back to the class code and
a missing message to the empty one. -/
def wasmGuestError (code : JsString) (message : Option JsString) (retryable : Option Bool)
    (field : Option JsString) : WasmRuntimeError :=
  ⟨.guest, if code = [] then WasmErrorClass.guest.code else code, message.getD [],
    retryable.getD false, field⟩

end ForgeDeno
