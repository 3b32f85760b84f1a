-- SUMMARY: The nonces handed out to senders: what is kept for each of them, and the operations on it.
import ShardNet.Address

/-!
# Nonces

The transactions of a sender are numbered without gaps. The book keeps, for every sender it knows,
the next nonce and how many have been issued since the sender was last in step with the network.

A sender has a slot from the first time a nonce is asked for; the slot stays empty until the nonce
of the account is known, and becomes empty again when it is forgotten.
-/

namespace ShardNet

/-- The nonces of a sender who is in step with the network. -/
structure Reservation where
  /-- The nonce that is handed out next. -/
  next : UInt64
  /-- How many nonces are out since the last step. -/
  issued : UInt64
  deriving DecidableEq, Repr

namespace Reservation

/-- Starts from the nonce of the account. -/
def start (nonce : UInt64) : Reservation := ⟨nonce, 0⟩

/-- After one more nonce has been handed out. -/
def advance (r : Reservation) : Reservation := ⟨r.next + 1, r.issued + 1⟩

/-- Whether a nonce is the last one that was issued. -/
def isLast (r : Reservation) (nonce : UInt64) : Bool := 0 < r.issued && r.next == nonce + 1

/-- Whether a nonce is the only one that was issued. -/
def isSole (r : Reservation) (nonce : UInt64) : Bool := r.issued == 1 && r.next == nonce + 1

/-- After the last nonce has been given back. -/
def retreat (r : Reservation) (nonce : UInt64) : Reservation := ⟨nonce, r.issued - 1⟩

end Reservation

structure NonceBook where
  slots : List (Address × Option Reservation)

namespace NonceBook

def empty : NonceBook := ⟨[]⟩

/-- The contents of a sender's slot. -/
def findSlot (sender : Address) :
    List (Address × Option Reservation) → Option (Option Reservation)
  | [] => none
  | (other, slot) :: rest => if sender = other then some slot else findSlot sender rest

/-- The slot of a sender who has one. -/
def slot? (book : NonceBook) (sender : Address) : Option (Option Reservation) :=
  findSlot sender book.slots

/-- The nonces of a sender who is in step. -/
def reservation? (book : NonceBook) (sender : Address) : Option Reservation :=
  (book.slot? sender).join

/-- Replaces the contents of a slot, or adds the slot at the end. -/
def putSlot (sender : Address) (contents : Option Reservation) :
    List (Address × Option Reservation) → List (Address × Option Reservation)
  | [] => [(sender, contents)]
  | (other, slot) :: rest =>
    if sender = other then (other, contents) :: rest
    else (other, slot) :: putSlot sender contents rest

def put (book : NonceBook) (sender : Address) (contents : Option Reservation) : NonceBook :=
  ⟨putSlot sender contents book.slots⟩

@[simp] theorem slot?_put_self (book : NonceBook) (sender : Address)
    (contents : Option Reservation) : (book.put sender contents).slot? sender = some contents := by
  obtain ⟨slots⟩ := book
  simp only [put, slot?]
  induction slots with
  | nil => simp [putSlot, findSlot]
  | cons head rest ih => by_cases same : sender = head.1 <;> simp [putSlot, findSlot, same, ih]

theorem slot?_put_of_ne (book : NonceBook) {sender other : Address} (h : other ≠ sender)
    (contents : Option Reservation) :
    (book.put sender contents).slot? other = book.slot? other := by
  obtain ⟨slots⟩ := book
  simp only [put, slot?]
  induction slots with
  | nil => simp [putSlot, findSlot, h]
  | cons head rest ih =>
    by_cases same : sender = head.1
    · subst same
      simp [putSlot, findSlot, h]
    · simp [putSlot, findSlot, same, ih]

/-! ## Operations -/

/-- Gives a sender a slot. -/
def openSlot (book : NonceBook) (sender : Address) : NonceBook :=
  if (book.slot? sender).isSome then book else book.put sender none

/-- Hands out the next nonce of a sender who is in step. -/
def take (book : NonceBook) (sender : Address) : Option UInt64 × NonceBook :=
  match book.reservation? sender with
  | some r => (some r.next, book.put sender (some r.advance))
  | none => (none, book)

/-- Brings a sender in step with the network, and hands out the first nonce. -/
def start (book : NonceBook) (sender : Address) (nonce : UInt64) : NonceBook :=
  book.put sender (some (Reservation.start nonce).advance)

/-- Takes back a nonce, if it is the last one issued. -/
def release (book : NonceBook) (sender : Address) (nonce : UInt64) : Bool × NonceBook :=
  match book.reservation? sender with
  | some r =>
    if r.isLast nonce then (true, book.put sender (some (r.retreat nonce))) else (false, book)
  | none => (false, book)

/-- Forgets a sender's nonces, if this one is all that was issued. -/
def invalidateIfSole (book : NonceBook) (sender : Address) (nonce : UInt64) : Bool × NonceBook :=
  match book.reservation? sender with
  | some r => if r.isSole nonce then (true, book.put sender none) else (false, book)
  | none => (false, book)

/-- Forgets a sender's nonces. -/
def invalidate (book : NonceBook) (sender : Address) : NonceBook :=
  if (book.slot? sender).isSome then book.put sender none else book

/-- Brings a sender in step with a known nonce. -/
def resync (book : NonceBook) (sender : Address) (nonce : UInt64) : NonceBook :=
  book.put sender (some (.start nonce))

/-- The nonce that would be handed out next. -/
def peek (book : NonceBook) (sender : Address) : Option UInt64 :=
  (book.reservation? sender).map (·.next)

def description (book : NonceBook) : String :=
  "NonceCoordinator \x7b senders: " ++ toString book.slots.length ++ " \x7d"

end NonceBook

end ShardNet
