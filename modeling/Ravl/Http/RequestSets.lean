import Ravl.Http.Curl
import Ravl.Http.FetchReplies
import Ravl.Http.Synchronous

/-!
# The ids of request sets

All three clients take the number of sets they hold as the id of the next one. That is a free id
as long as sets are given up in the order in which they were submitted, last one first.
-/

namespace Ravl.Http
open ByteLib FallibleLib TransitionLib

def oneRequest (url : String) : HTTPRequests := [{ url := text url }]

end Ravl.Http
