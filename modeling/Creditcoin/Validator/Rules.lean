import Creditcoin.Applicator
import Creditcoin.Cbor
import Creditcoin.Validator.Validation

/-!
# House-keeping of the validator

A block is to have the processor keep house of its own accord at its start and nowhere else. The
validator looks for one payload, byte by byte; the processor reads a payload as CBOR, looks for the
verb in any letter case and reads the index as a numeral, so that other payloads mean the same. Nor
does the validator look into the first batch.
-/

namespace Creditcoin.Validator

namespace BlockWrapper

variable (printFloat : Text → Text) (blkw : BlockWrapper)

end BlockWrapper

section Rules

variable {services : Services} {blkw : BlockWrapper} {prevStateRoot : Text}
  {printFloat : Text → Text}

end Rules

end Creditcoin.Validator
