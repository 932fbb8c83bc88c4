import RustRest.Response.Finalize

/-!
# Errors and their responses

A response that was made from an error carries it. `render_response_error` takes the error out, and has the handler that
the application registered make a response of it. Both functions that render give the calls of the handler along with
the response, so that a record of the calls is a record of what was done.
-/

namespace RustRest

variable {Stream : Type}

/-- `ErrorHandler`; it may panic. -/
abbrev ErrorHandler (Stream : Type) := HttpError → Option (Response Stream)

/-- A call of the error handler: the error it was given, and the response it returned unless it panicked. -/
structure ErrorHandlerCall (Stream : Type) where
  error : HttpError
  answer : Option (Response Stream)

/-- The handler called under `catch_unwind`, and the call. -/
def ErrorHandler.call (handler : ErrorHandler Stream) (error : HttpError) :
    Option (Response Stream) × List (ErrorHandlerCall Stream) :=
  (handler error, [⟨error, handler error⟩])

variable (crates : ResponseCrates)

/-- `panic_response`: what stands in the place of a layer that panicked. -/
def panicResponse : Response Stream := .internalServerError crates

/-- `render_http_error`. -/
def renderHttpError (errorHandler : Option (ErrorHandler Stream)) (error : HttpError) :
    Response Stream × List (ErrorHandlerCall Stream) :=
  match errorHandler with
  | none => (.fromError crates error, [])
  | some handler =>
    match handler.call error with
    -- the handler panics; the response in its place is final
    | (none, calls) => ({ Response.internalServerError crates with error := none }, calls)
    | (some response, calls) =>
      ({ response with error := none, headers := response.headers.overwrite error.headers fun _ => true }, calls)

/-- The fields that the application gave to an error response, as against those that describe its body. -/
def outlivesRendering (name : HeaderName) : Bool := name ≠ .contentType && name ≠ .contentLength

/-- `render_response_error`. -/
def renderResponseError (errorHandler : Option (ErrorHandler Stream)) (response : Response Stream) :
    Response Stream × List (ErrorHandlerCall Stream) :=
  match response.error, errorHandler with
  | some error, some handler =>
    let (rendered, calls) := renderHttpError crates (some handler) error
    ({ rendered with
      headers := rendered.headers.overwrite response.headers outlivesRendering
      status := if response.status ≠ error.status then response.status else rendered.status }, calls)
  | _, _ => ({ response with error := none }, [])

/-! ## What is rendered -/

variable {crates} {errorHandler : Option (ErrorHandler Stream)} {response : Response Stream}

variable (crates errorHandler response)

end RustRest
