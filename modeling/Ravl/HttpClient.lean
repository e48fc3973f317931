import Ravl.Util

/-!
# HTTP requests and responses (http_client.h)
-/

namespace Ravl
open ByteLib FallibleLib

structure HTTPRequest where
  url : Bytes := []
  headers : List (Bytes × Bytes) := []
  body : Bytes := []
  deriving DecidableEq

structure HTTPResponse where
  status : ℕ := 0
  headers : List (Bytes × Bytes) := []
  body : Bytes := []
  deriving DecidableEq

abbrev HTTPRequests := List HTTPRequest
abbrev HTTPResponses := List HTTPResponse

/-- `headers.find(name)` on the header map. -/
def findHeader (name : Bytes) (headers : List (Bytes × Bytes)) : Option Bytes :=
  (headers.find? fun h => h.1 = name).map (·.2)

/-- `get_header_data` (http_client.h:133-151): the name as given, else in lower case. -/
def HTTPResponse.getHeaderData (r : HTTPResponse) (name : Bytes) (urlDecoded : Bool) :
    Result Bytes := do
  let value ← orThrow
    ((findHeader name r.headers).or (findHeader (name.map toLower) r.headers))
    (.exception ("missing response header '" ++ str name ++ "'"))
  pure (if urlDecoded then urlDecode value else value)

def HTTPResponse.getHeaderString (r : HTTPResponse) (name : Bytes) (urlDecoded : Bool) :
    Result Bytes :=
  r.getHeaderData name urlDecoded

/-- A header is looked for under its name and then under its name in lower case. -/
theorem HTTPResponse.getHeaderString_ok_iff (r : HTTPResponse) (name value : Bytes) :
    r.getHeaderString name false = .ok value ↔
      (findHeader name r.headers).or (findHeader (name.map toLower) r.headers) = some value := by
  simp [HTTPResponse.getHeaderString, HTTPResponse.getHeaderData, orThrow_ok]

end Ravl
