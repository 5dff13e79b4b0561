import LibTransistor.Ipc.BufferDelivery
import LibTransistor.Ipc.StuckSessions
import LibTransistor.Ipc.Replies
import LibTransistor.Ipc.HandleOwnership
import LibTransistor.Ipc.ObjectOwnership
import LibTransistor.Ipc.Reentry
import LibTransistor.Ipc.HostileRequest
import LibTransistor.Fd.References
import LibTransistor.Fs.FailedCalls
import LibTransistor.Syscalls.Sbrk
import LibTransistor.Loader.HandOver
import LibTransistor.Nro.Layout
import LibTransistor.Service.Honesty
import LibTransistor.Fs.Safety
import LibTransistor.Fd.Locks
import LibTransistor.Squashfs.ReadYourWrites
import LibTransistor.Syscalls.Seeks
import LibTransistor.Ipc.Staging
import LibTransistor.Ipc.ReplyResults
import LibTransistor.Ipc.DomainConversion
import LibTransistor.Service.SmRefusal
import LibTransistor.Bsd.Capacity
import LibTransistor.Bsd.Limit
import LibTransistor.Display.Dequeue
import LibTransistor.Gfx.Swizzle
import LibTransistor.Util.Hexnum
import LibTransistor.Loader.Sha256
import LibTransistor.Loader.OwnHeap
import LibTransistor.Loader.Download
import LibTransistor.Loader.Arguments
import LibTransistor.Crt0.Relocate
import LibTransistor.Fd.Threads
