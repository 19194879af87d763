import ContentFilter.Compile.Round

/-! # Downloads

One request with a time limit. Everything that can go wrong on the way becomes one failure that names
the address; what goes wrong elsewhere is passed on as it is.

* `Response`: how a request turns out.
* `DownloadFault`: why a download failed.
* `Response.content`: the content of a response, or why there is none.
-/

set_option autoImplicit false

namespace ContentFilter

open Text

/-- How a request turns out: an answer with a status, a timeout, a failed transport, or a failure of
another kind. -/
inductive Response where
  | answer (status : Int) (content : Bytes)
  | timeout
  | transport (failure : Failure)
  | other (failure : Failure)

/-- Why a download failed: the address, the reason, and the status if there was an answer. -/
structure DownloadFault where
  url : Text
  reason : Text
  status : Option Int := none
  deriving DecidableEq

namespace DownloadFault

def message (f : DownloadFault) : Text := f.url ++ ": ".toList ++ f.reason

def toFailure (f : DownloadFault) : Failure := ⟨"DownloadError".toList, f.message⟩

end DownloadFault

/-- Why there is no content: the download failed, or something else did. -/
inductive FetchFault where
  | download (fault : DownloadFault)
  | other (failure : Failure)

def FetchFault.toFailure : FetchFault → Failure
  | download f => f.toFailure
  | other f => f

/-- The content of a response; only an answer with status 200 has one. -/
def Response.content (url : Text) : Response → Except FetchFault Bytes
  | answer status content =>
    if status = 200 then .ok content
    else .error (.download ⟨url, "HTTP ".toList ++ ofInt status, some status⟩)
  | timeout => .error (.download ⟨url, "Timeout".toList, none⟩)
  | transport f => .error (.download ⟨url, f.describe, none⟩)
  | other f => .error (.other f)

def userAgent : Text := "blockengine/1.0 (+list refresh)".toList

def requestHeaders (given : List (Text × Text)) : List (Text × Text) :=
  ("User-Agent".toList, (given.lookup "User-Agent".toList).getD userAgent) ::
    given.filter fun h => h.1 != "User-Agent".toList

end ContentFilter
