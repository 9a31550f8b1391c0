/-!
# Control characters

A control character is one of the general category Cc.
-/

namespace FlowGraph.Text

/-- Whether a character is a control character. -/
def isControl (c : Char) : Bool := c.toNat < 0x20 || (0x7F ≤ c.toNat && c.toNat < 0xA0)

end FlowGraph.Text
