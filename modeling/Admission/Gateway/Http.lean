/-! Requests and answers of HTTP, as far as the gateway reads and writes them. -/

set_option autoImplicit false

namespace Admission.Http

structure Request where
  method : String
  /-- The path, with a query perhaps. -/
  target : String
  body : List UInt8

def Request.path (request : Request) : String :=
  String.ofList (request.target.toList.takeWhile fun c => c != '?' && c != '#')

structure Response where
  status : Nat
  contentType : Option String := none
  /-- The methods that are allowed where the one of the request is not. -/
  allow : Option String := none
  body : String := ""
  deriving DecidableEq

namespace Response

def plain (status : Nat) (body : String) : Response :=
  { status, contentType := some "text/plain; charset=utf-8", body }

def json (status : Nat) (body : String) : Response :=
  { status, contentType := some "application/json", body }

def notFound : Response :=
  { status := 404 }

def notAllowed (methods : String) : Response :=
  { status := 405, allow := some methods }

end Response

end Admission.Http
