import FrameStream.Text.Base64

/-!
# Reading base 64 back

Every letter stands for six bits and no letter is the padding sign, so the groups of four letters can be told from the
padded one at the end, and from each of them its bytes come back. The text is as long as the padding makes it, four
letters for every three bytes begun.
-/

namespace FrameStream.Text.Base64

/-! ## Letters -/

end FrameStream.Text.Base64
