import Nearby.Octets

/-!
# Reading long values page by page

A value may be longer than one transfer, so a reader asks for it with growing offsets. A page holds
one byte less than the transfer unit of the link. At the end of the value the page is empty, which
is no error: the reader takes it as the end.
-/

namespace Nearby.Paging

/-- The page of a value at an offset, over a link with a transfer unit of `mtu` bytes. -/
def page (value : Bytes) (offset mtu : Nat) : Bytes := (value.drop offset).take (mtu - 1)

/-- The pages a reader gets from `offset` on until an empty one, at most `fuel` of them. -/
def pagesFrom (value : Bytes) (mtu : Nat) : (fuel : Nat) → (offset : Nat) → List Bytes
  | 0, _ => []
  | fuel + 1, offset =>
    match page value offset mtu with
    | [] => []
    | got@(_ :: _) => got :: pagesFrom value mtu fuel (offset + got.length)

/-- The pages of a value. Every page but the last, empty one takes a byte off the value. -/
def pages (value : Bytes) (mtu : Nat) : List Bytes := pagesFrom value mtu (value.length + 1) 0

end Nearby.Paging
