import CallDoc.Markup.Inline
import CallDoc.Markup.Weight

/-!
The block tree of a text. The frames of a list of lines are read in order, and the bodies
in them by the same rules; a body weighs less than the lines it was cut from, so that
`ofLines_eq` needs no condition.
-/
namespace CallDoc

/-- The block that a frame holds, where `read` reads bodies. -/
def Frame.toBlock (roles : List Text) (read : List Line → Except Error (List Block)) :
    Frame → Except Error Block
  | paragraph line text => (Inline.parse roles text).map (.paragraph line)
  | bullets line bullet items => (items.mapM read).map (.bullets line bullet)
  | enumerated line sequence bracket start items =>
    (items.mapM read).map (.enumerated line sequence bracket start)
  | literal line text => .ok (.literal line text)
  | doctest line text => .ok (.doctest line text)
  | quote line body => (read body).map (.quote line)
  | field line role name type body => (read body).map (.field line role name type)
  | rubric line title => (Inline.parse roles title).map (.rubric line)
  | admonition line label body => (read body).map (.admonition line label)
  | comment line text => .ok (.comment line text)

theorem mapM_congr {α β ε : Type} {f g : α → Except ε β} {l : List α}
    (h : ∀ a ∈ l, f a = g a) : l.mapM f = l.mapM g := by
  induction l with
  | nil => rfl
  | cons a l ih =>
    simp only [List.mapM_cons, h a List.mem_cons_self,
      ih fun b hb => h b (List.mem_cons_of_mem a hb)]

/-- Only what is read of its bodies matters for the block of a frame. -/
theorem Frame.toBlock_congr {roles : List Text} {f g : List Line → Except Error (List Block)}
    {frame : Frame} (h : ∀ body ∈ frame.bodies, f body = g body) :
    frame.toBlock roles f = frame.toBlock roles g := by
  cases frame with
  | bullets line bullet items => exact congrArg (Except.map _) (mapM_congr (l := items) h)
  | enumerated line sequence bracket start items =>
    exact congrArg (Except.map _) (mapM_congr (l := items) h)
  | quote line body => simp only [toBlock, h body (List.mem_singleton_self body)]
  | field line role name type body =>
    simp only [toBlock, h body (List.mem_singleton_self body)]
  | admonition line label body => simp only [toBlock, h body (List.mem_singleton_self body)]
  | paragraph | literal | doctest | rubric | comment => rfl

namespace Block

/-- The blocks of a list of lines. -/
def ofLines (roles : List Text) (lines : List Line) : Except Error (List Block) :=
  let weight := Line.weight lines
  (Frame.cut lines).mapM <| Frame.toBlock roles fun body =>
    if Line.weight body < weight then ofLines roles body else .ok []
termination_by Line.weight lines

/-- Frames are read in order, and their bodies in the same way. -/
theorem ofLines_eq (roles : List Text) (lines : List Line) :
    ofLines roles lines = (Frame.cut lines).mapM (Frame.toBlock roles (ofLines roles)) := by
  rw [ofLines]
  exact mapM_congr fun frame hframe => Frame.toBlock_congr fun body hbody =>
    if_pos (Frame.cut_weight lines frame hframe body hbody)

/-- The blocks of a text. -/
def parse (roles : List Text) (t : Text) : Except Error (List Block) :=
  ofLines roles (Line.ofText t)

end Block
end CallDoc
