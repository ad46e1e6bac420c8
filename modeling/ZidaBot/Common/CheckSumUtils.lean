/-
Module: ZidaBot.Common.CheckSumUtils
Purpose: The checksum of `common/include/utils/CheckSumUtils.hpp`: the texts of the top levels, bid and ask
  in turn, joined by colons.  CRC-32 itself is a parameter.
Trusted boundary: human-reviewed model
Main exports: CRC32ToSigned, checksumTokens, checkBitgetCRC32
-/
import ZidaBot.Common.OrderBook

namespace ZidaBot

/-- The bit pattern of an unsigned 32-bit number read as a signed one. -/
def CRC32ToSigned (u : UInt32) : Int := Int.bmod u.toNat (2 ^ 32)

/-- The tokens of the loop: price and quantity of each level that the two pointers give. -/
def checksumTokens (book : OrderBook) (topN : Nat) : List String :=
  (List.range topN).flatMap fun i =>
    ((book.levelPtr .bid i).toList ++ (book.levelPtr .ask i).toList).flatMap fun level =>
      [level.price, level.quantity]

/-- `checkBitgetCRC32`. -/
def checkBitgetCRC32 (CRC32Checksum : String → UInt32) (book : OrderBook) (expected : Int) (topN : Nat) :
    Bool :=
  let s := ":".intercalate (checksumTokens book topN)
  CRC32ToSigned (CRC32Checksum s) == expected

end ZidaBot
