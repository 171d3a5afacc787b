import LayeredAssets.Text.Bytes

namespace LayeredAssets.Fnv

def basis : UInt64 := 0xcbf29ce484222325

def prime : UInt64 := 0x00000100000001b3

def push (hash : UInt64) (b : UInt8) : UInt64 := (hash ^^^ b.toUInt64) * prime

def write (hash : UInt64) (bytes : Bytes) : UInt64 := bytes.foldl push hash

/-- The closing byte occurs in no text, so that no text's hash continues another's. -/
def ofText (s : String) : UInt64 := push (write basis (Bytes.ofText s)) 0xff

end LayeredAssets.Fnv
