import Evidence.Text.Separated
import Evidence.Value.Basic

namespace Evidence.Cbor.Ability

def first : List String := Text.split ' ' <|
  "readBigUInt64LE readBigUInt64BE readBigUint64LE readBigUint64BE readBigInt64LE " ++
  "readBigInt64BE writeBigUInt64LE writeBigUInt64BE writeBigUint64LE writeBigUint64BE " ++
  "writeBigInt64LE writeBigInt64BE readUIntLE readUInt32LE readUInt16LE readUInt8 readUIntBE " ++
  "readUInt32BE readUInt16BE readUintLE readUint32LE readUint16LE readUint8 readUintBE " ++
  "readUint32BE readUint16BE readIntLE readInt32LE readInt16LE readInt8 readIntBE readInt32BE " ++
  "readInt16BE writeUIntLE writeUInt32LE writeUInt16LE writeUInt8 writeUIntBE writeUInt32BE " ++
  "writeUInt16BE writeUintLE writeUint32LE writeUint16LE writeUint8 writeUintBE writeUint32BE " ++
  "writeUint16BE writeIntLE writeInt32LE writeInt16LE writeInt8 writeIntBE writeInt32BE " ++
  "writeInt16BE readFloatLE readFloatBE readDoubleLE readDoubleBE writeFloatLE writeFloatBE " ++
  "writeDoubleLE writeDoubleBE asciiSlice base64Slice base64urlSlice latin1Slice hexSlice " ++
  "ucs2Slice utf8Slice asciiWrite base64Write base64urlWrite latin1Write hexWrite ucs2Write " ++
  "utf8Write"

def last : List String := Text.split ' ' <|
  "copy toString equals inspect compare indexOf lastIndexOf includes fill write toJSON " ++
  "subarray slice swap16 swap32 swap64 toLocaleString"

variable {α : Type} [Scalar α]

def fields : List (String × Value α) :=
  first.map (·, .callable) ++ [("parent", .object []), ("offset", .finite 0)] ++
    last.map (·, .callable)

end Evidence.Cbor.Ability
