import Rackphone.Lib.AccessOrder
import Rackphone.Lib.KeyLines
import Rackphone.Lib.Run

/-!
# Reposted notifications

`NotificationDeduplicator` of `NotificationCollector.kt`: the latest content of a bounded number of
notification keys, in an access-ordered map.
-/

namespace Rackphone

structure NotificationContent where
  title : String
  text : String
deriving DecidableEq

structure NotificationDeduplicator where
  capacity : ℕ+
  latest : Dict String NotificationContent

/-- A notification that is posted, its key first. -/
abbrev Post := String × NotificationContent

namespace NotificationDeduplicator

def start (capacity : ℕ+) : NotificationDeduplicator := ⟨capacity, .empty⟩

def size (d : NotificationDeduplicator) : ℕ := d.latest.items.length

/-- The answer and what is remembered after it. -/
def isDuplicate (d : NotificationDeduplicator) (key : String) (title text : String) :
    Bool × NotificationDeduplicator :=
  let content : NotificationContent := ⟨title, text⟩
  let duplicate := decide (d.latest.get key = some content)
  let latest := AccessOrder.put (AccessOrder.touch d.latest key) key content
  let latest :=
    if latest.items.length > d.capacity then AccessOrder.dropEldest latest else latest
  (duplicate, { d with latest })

def step (d : NotificationDeduplicator) (post : Post) : NotificationDeduplicator :=
  (d.isDuplicate post.1 post.2.title post.2.text).2

/-- Everything that was posted, as a memory without a bound would have it: whether the key is one of
the `capacity` posted last, with this content. -/
def Remembers (capacity : ℕ) (posts : List Post) (post : Post) : Prop :=
  post.1 ∈ (AccessOrder.recent (posts.map Prod.fst)).take capacity
    ∧ KeyLines.lastValue post.1 posts = some post.2

end NotificationDeduplicator

end Rackphone
