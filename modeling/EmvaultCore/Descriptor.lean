import EmvaultCore.Error
import EmvaultCore.Library.Text

/-!
# Descriptors and their texts

The part of a `miniscript` descriptor that the library builds or inspects, and
how it prints. The constructor and the parser belong to `miniscript`, the texts
of uncompressed points and extended keys to `bitcoin`; both are parameters.
-/

namespace EmvaultCore

open Library (Text)
open Library.Text

inductive SinglePubKey where
  | fullKey (key : PublicKey)
  | xOnly (key : XOnlyPublicKey)
deriving DecidableEq, Repr

structure SinglePub where
  origin : Option KeySource
  key : SinglePubKey
deriving DecidableEq, Repr

inductive Wildcard where
  | none
  | unhardened
  | hardened
deriving DecidableEq, Repr

structure DescriptorXKey where
  origin : Option KeySource
  xkey : Xpub
  derivationPath : DerivationPath
  wildcard : Wildcard
deriving DecidableEq, Repr

structure DescriptorMultiXKey where
  origin : Option KeySource
  xkey : Xpub
  derivationPaths : List DerivationPath
  wildcard : Wildcard
deriving DecidableEq, Repr

inductive DescriptorPublicKey where
  | single (key : SinglePub)
  | xPub (key : DescriptorXKey)
  | multiXPub (key : DescriptorMultiXKey)
deriving DecidableEq, Repr

/-- A `wsh` body. Raw miniscript is carried as its text. -/
inductive WshInner where
  | sortedMulti (k : Nat) (pks : List DescriptorPublicKey)
  | ms (body : Text)
deriving DecidableEq, Repr

inductive TapTree where
  | multiA (k : Nat) (pks : List DescriptorPublicKey)
  | other (body : Text)
deriving DecidableEq, Repr

inductive Descriptor where
  | bare (body : Text)
  | pkh (body : Text)
  | wpkh (body : Text)
  | sh (body : Text)
  | wsh (inner : WshInner)
  | tr (internalKey : DescriptorPublicKey) (tree : Option TapTree)
deriving DecidableEq, Repr

structure KeyPrinting where
  uncompressed : SecpPublicKey → Text
  xpub : Xpub → Text
  derivationPaths : List DerivationPath → Text
  derivationPath : DerivationPath → Text

def ChildNumber.toText : ChildNumber → Text
  | .normal index => decimal index
  | .hardened index => decimal index ++ ['\'']

def pathText (path : DerivationPath) : Text :=
  (path.map fun child => '/' :: child.toText).flatten

def originText : Option KeySource → Text
  | none => []
  | some (fingerprint, path) => '[' :: hex 8 fingerprint ++ pathText path ++ [']']

def Wildcard.toText : Wildcard → Text
  | .none => []
  | .unhardened => ['/', '*']
  | .hardened => ['/', '*', 'h']

/-! The fixed parts of descriptor texts, spelled out so that they compute. -/

def wshText : Text := ['w', 's', 'h', '(']
def sortedmultiText : Text := ['s', 'o', 'r', 't', 'e', 'd', 'm', 'u', 'l', 't', 'i', '(']
def trText : Text := ['t', 'r', '(']
def multiAText : Text := ['m', 'u', 'l', 't', 'i', '_', 'a', '(']
def externalText : Text := ['/', '0', '/', '*']
def multipathText : Text := ['/', '<', '0', ';', '1', '>', '/', '*']

section Printed

variable (printing : KeyPrinting)

def PublicKey.toText (key : PublicKey) : Text :=
  if key.compressed then
    (if key.inner.odd then ['0', '3'] else ['0', '2']) ++ hex 64 key.inner.xOnly
  else printing.uncompressed key.inner

def SinglePubKey.toText : SinglePubKey → Text
  | .fullKey key => key.toText printing
  | .xOnly key => hex 64 key

def DescriptorPublicKey.toText : DescriptorPublicKey → Text
  | .single key => originText key.origin ++ key.key.toText printing
  | .xPub key =>
      originText key.origin ++ printing.xpub key.xkey ++ pathText key.derivationPath ++
        key.wildcard.toText
  | .multiXPub key =>
      originText key.origin ++ printing.xpub key.xkey ++
        printing.derivationPaths key.derivationPaths ++ key.wildcard.toText

def keysText (keys : List DescriptorPublicKey) : Text :=
  (keys.map fun key => ',' :: key.toText printing).flatten

def WshInner.toText : WshInner → Text
  | .sortedMulti k pks =>
      sortedmultiText ++ decimal k ++ keysText printing pks ++ [')']
  | .ms body => body

def TapTree.toText : TapTree → Text
  | .multiA k pks => multiAText ++ decimal k ++ keysText printing pks ++ [')']
  | .other body => body

def Descriptor.body : Descriptor → Text
  | .bare body | .pkh body | .wpkh body | .sh body => body
  | .wsh inner => wshText ++ inner.toText printing ++ [')']
  | .tr internalKey none => trText ++ internalKey.toText printing ++ [')']
  | .tr internalKey (some tree) =>
      trText ++ internalKey.toText printing ++ [','] ++ tree.toText printing ++ [')']

end Printed

structure Miniscript where
  printing : KeyPrinting
  newWshSortedmulti : Nat → List DescriptorPublicKey → Except String Descriptor
  fromStr : Text → Except String Descriptor
  checksum : Text → Text

/-- A descriptor has the threshold and the keys it was assembled from, in their
order, and the text of a `tr(.., multi_a(..))` is read as what it prints. -/
structure Miniscript.Faithful (miniscript : Miniscript) : Prop where
  sortedmulti : ∀ {k keys descriptor}, miniscript.newWshSortedmulti k keys = .ok descriptor →
    descriptor = .wsh (.sortedMulti k keys)
  multiA : ∀ {internalKey k keys descriptor}, keys ≠ [] →
    miniscript.fromStr
        (Descriptor.body miniscript.printing (.tr internalKey (some (.multiA k keys)))) =
      .ok descriptor →
    descriptor = .tr internalKey (some (.multiA k keys))

theorem Miniscript.Faithful.with_checksum {miniscript : Miniscript}
    (faithful : miniscript.Faithful) (checksum : Text → Text) :
    { miniscript with checksum := checksum }.Faithful := by
  constructor
  · intro k keys descriptor answer
    exact @Miniscript.Faithful.sortedmulti _ faithful k keys descriptor answer
  · intro internalKey k keys descriptor nonempty answer
    exact @Miniscript.Faithful.multiA _ faithful internalKey k keys descriptor nonempty answer

/-- `to_string`, the body and its `#checksum` suffix. -/
def Descriptor.toText (miniscript : Miniscript) (descriptor : Descriptor) : Text :=
  let body := descriptor.body miniscript.printing
  body ++ '#' :: miniscript.checksum body

/-- `to_multipath_string`: without checksum, and `/0/*` lifted to both keychains. -/
def toMultipathString (miniscript : Miniscript) (descriptor : Descriptor) : Text :=
  replace externalText multipathText (before '#' (descriptor.toText miniscript))

end EmvaultCore
