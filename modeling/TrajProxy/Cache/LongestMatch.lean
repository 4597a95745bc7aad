import TrajProxy.Cache.PrefixSoundness
import TrajProxy.Library.Search

/-! Whether the match with the most ids is the one with the longest text. The
search takes the first record, in the order of ids, whose text is a prefix; a
record that matches further but has fewer ids stored is passed over. -/

namespace TrajProxy.Cache
open Search

/-- `len(record["full_conversation_text"])` -/
def Row.textLength (row : Row) : Nat := (row.fullConversationText.getD "").length

variable {text : String} {history : List Row} {row : Row}

end TrajProxy.Cache
