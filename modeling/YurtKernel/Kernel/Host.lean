import YurtKernel.Kernel.State

/-! The `kh_*` imports (`kh.rs`).

    The host is code outside the kernel: a state `σ` and one function for each import the modelled
    calls reach. A call that fills a buffer returns, besides its code, the bytes it wrote at the
    start of the buffer. Nothing is assumed about the functions here. -/

namespace Yurt

structure Kh (σ : Type) where
  fillRandom : σ → Nat → (Int × Bytes) × σ
  realOpen : σ → Bytes → Nat → Nat → Int × σ
  realRead : σ → Int → Nat → (Int × Bytes) × σ
  realWrite : σ → Int → Bytes → Int × σ
  realStatSize : σ → Bytes → Except Int Nat × σ
  realUnlink : σ → Bytes → Int × σ
  realMkdir : σ → Bytes → Nat → Int × σ
  realSymlink : σ → Bytes → Bytes → Int × σ
  realRename : σ → Bytes → Bytes → Int × σ
  socketConnect : σ → Bytes → Nat → Int × σ
  socketSend : σ → Int → Bytes → Int × σ
  socketRecv : σ → Int → Nat → Nat → (Int × Bytes) × σ
  socketClose : σ → Int → Int × σ
  socketListenAt : σ → Bytes → Nat → Int × σ
  socketAccept : σ → Int → Nat → Int × σ
  spawnProcess : σ → Bytes → Bytes → Int × σ

/-- A host without files or sockets, as the native unit tests link it: every import answers
    `-ENOSYS`. -/
def Kh.absent : Kh Unit where
  fillRandom h _ := ((-ENOSYS, []), h)
  realOpen h _ _ _ := (-ENOSYS, h)
  realRead h _ _ := ((-ENOSYS, []), h)
  realWrite h _ _ := (-ENOSYS, h)
  realStatSize h _ := (.error ENOSYS, h)
  realUnlink h _ := (-ENOSYS, h)
  realMkdir h _ _ := (-ENOSYS, h)
  realSymlink h _ _ := (-ENOSYS, h)
  realRename h _ _ := (-ENOSYS, h)
  socketConnect h _ _ := (-ENOSYS, h)
  socketSend h _ _ := (-ENOSYS, h)
  socketRecv h _ _ _ := ((-ENOSYS, []), h)
  socketClose h _ := (-ENOSYS, h)
  socketListenAt h _ _ := (-ENOSYS, h)
  socketAccept h _ _ := (-ENOSYS, h)
  spawnProcess h _ _ := (-ENOSYS, h)

end Yurt
