import VVBright.Foundation.FirstFit
import VVBright.Memory.State
import VVBright.Memory.Frames
import VVBright.Memory.Paging
import VVBright.Memory.Client
import VVBright.Memory.FrameRuns
import VVBright.Memory.TableFrames
import VVBright.Memory.Translation
import VVBright.Memory.HeapRuns
import VVBright.Memory.Init
import VVBright.Memory.Reserved
import VVBright.Memory.Reachable
import VVBright.Terminal.Scroll
import VVBright.Keyboard.Driver
import VVBright.Terminal.Page
import VVBright.Keyboard.Modifiers
import VVBright.Keyboard.Layout
import VVBright.Hardware.Pic
import VVBright.Hardware.X86
import VVBright.Interrupts.State
import VVBright.Interrupts.Stubs
import VVBright.Interrupts.Dispatch
import VVBright.Memory.KernelMapping
import VVBright.Memory.Exhaustion
import VVBright.Memory.KernelImage
import VVBright.Foundation.Bump
import VVBright.Memory.HeapExact
import VVBright.Foundation.Painter
import VVBright.Video.Framebuffer
import VVBright.Video.Drawing
import VVBright.Interrupts.Restore
import VVBright.Foundation.Latch
import VVBright.Keyboard.Repeat
import VVBright.Terminal.Cells
import VVBright.Terminal.Bounds
import VVBright.Foundation.Accounts
import VVBright.Memory.Ownership
import VVBright.Memory.HighWater
import VVBright.Memory.AddressSpace
import VVBright.Hardware.PicService
import VVBright.Kernel.Platform
import VVBright.Kernel.Echo
import VVBright.Kernel.Halt
import VVBright.Foundation.Cache
import VVBright.Memory.BootMapping
import VVBright.Memory.Mmu
import VVBright.Interrupts.Vectors
import VVBright.Interrupts.Descriptor
import VVBright.Video.Overhang
import VVBright.Memory.PageEntry
import VVBright.Memory.Locality
import VVBright.Terminal.Screen
import VVBright.Kernel.SharedMemory
import VVBright.Kernel.NoFault
import VVBright.Kernel.Desktop
