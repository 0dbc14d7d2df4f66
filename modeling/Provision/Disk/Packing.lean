/-! # Packed directories

The bytes of an archive. Each member is a header of one block and its content filled up to whole
blocks, two empty blocks end the list, and all of it is wrapped as a gzip file that stores its data
as they are. -/

namespace Provision

structure Member where
  name : String
  isDir : Bool
  mode : Nat
  content : ByteArray

def Member.size (m : Member) : Nat :=
  m.content.size

namespace Packing

def zeros (n : Nat) : List UInt8 :=
  List.replicate n 0

/-- Bytes cut or filled up with zeros to a width. -/
def field (width : Nat) (bs : List UInt8) : List UInt8 :=
  (bs ++ zeros width).take width

def octalDigits : Nat → Nat → List UInt8
  | 0, _ => []
  | width + 1, n => octalDigits width (n / 8) ++ [48 + UInt8.ofNat (n % 8)]

/-- A number as octal digits with a zero byte behind them. -/
def octal (digits n : Nat) : List UInt8 :=
  octalDigits digits n ++ [0]

def littleEndian : Nat → Nat → List UInt8
  | 0, _ => []
  | width + 1, n => UInt8.ofNat n :: littleEndian width (n / 256)

def blockSize : Nat := 512

/-- What stands before the checksum: name, mode, two owners, size and date. -/
def headerStart (name : List UInt8) (mode size : Nat) : List UInt8 :=
  field 100 name ++ octal 7 mode ++ octal 7 0 ++ octal 7 0 ++ octal 11 size ++ octal 11 0

/-- What stands behind the checksum: the kind, a link that is never used, and the format. -/
def headerEnd (kind : Char) : List UInt8 :=
  kind.toUInt8 :: zeros 100 ++ field 255 "ustar\x0000".toUTF8.toList

/-- The checksum is the sum of the header's bytes with blanks in its own place. -/
def checksum (start rest : List UInt8) : Nat :=
  (start ++ rest).foldl (fun n b => n + b.toNat) (8 * 32)

def header (name : List UInt8) (mode size : Nat) (kind : Char) : List UInt8 :=
  headerStart name mode size ++
    (octal 6 (checksum (headerStart name mode size) (headerEnd kind)) ++ [32]) ++ headerEnd kind

/-- Bytes filled up to whole blocks. -/
def filled (bs : List UInt8) : List UInt8 :=
  bs ++ zeros ((blockSize - bs.length % blockSize) % blockSize)

/-- A name too long for its field goes in front, as a member of its own. -/
def longName (name : List UInt8) : List UInt8 :=
  if name.length ≤ 100 then []
  else header "././@LongLink".toUTF8.toList 0 (name.length + 1) 'L' ++ filled (name ++ [0])

def memberBytes (m : Member) : List UInt8 :=
  let name := (if m.isDir then m.name ++ "/" else m.name).toUTF8.toList
  longName name ++ header name m.mode m.size (if m.isDir then '5' else '0') ++
    filled m.content.toList

def tape (members : List Member) : List UInt8 :=
  members.flatMap memberBytes ++ zeros (2 * blockSize)

def crcBit (c : UInt32) : UInt32 :=
  if c &&& 1 = 1 then (c >>> 1) ^^^ 0xEDB88320 else c >>> 1

def crcByte (c : UInt32) (b : UInt8) : UInt32 :=
  Nat.repeat crcBit 8 (c ^^^ b.toUInt32)

def crc (bs : List UInt8) : UInt32 :=
  bs.foldl crcByte 0xFFFFFFFF ^^^ 0xFFFFFFFF

/-- The most data that fit a chunk. -/
def chunkLimit : Nat := 65535

/-- Data in chunks as they are. The first argument is the number of chunks before the last. -/
def chunks : Nat → List UInt8 → List UInt8
  | 0, bs => 1 :: littleEndian 2 bs.length ++ littleEndian 2 (chunkLimit - bs.length) ++ bs
  | n + 1, bs =>
    0 :: littleEndian 2 chunkLimit ++ [0, 0] ++ bs.take chunkLimit ++ chunks n (bs.drop chunkLimit)

def gzip (bs : List UInt8) : List UInt8 :=
  [0x1f, 0x8b, 8, 0, 0, 0, 0, 0, 0, 255] ++ chunks ((bs.length - 1) / chunkLimit) bs ++
    littleEndian 4 (crc bs).toNat ++ littleEndian 4 bs.length

def bytes (members : List Member) : ByteArray :=
  ⟨(gzip (tape members)).toArray⟩

end Packing

end Provision
